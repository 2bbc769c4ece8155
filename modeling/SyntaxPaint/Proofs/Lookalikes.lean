import Mathlib.Data.List.Forall2
import SyntaxPaint.Proofs.Coverage
import SyntaxPaint.Proofs.Words
import SyntaxPaint.Scan.Highlighter

/-!
A scan sees the classes of characters only. Texts whose characters have the same classes, one by
one, have the same tokens and labels. The keyword painter looks at the characters themselves, but
when its words are ASCII it does not tell texts apart that differ beyond ASCII only.
-/

namespace SyntaxPaint

open Text (Buffer)

abbrev Tables.SameClasses (t : Tables) (codes others : List Nat) : Prop :=
  List.Forall₂ (fun code other => t.classOf code = t.classOf other) codes others

/-- Texts of one length that differ only where neither has an ASCII character. -/
abbrev SameInAscii (codes others : List Nat) : Prop :=
  List.Forall₂ (fun code other => code = other ∨ asciiLimit ≤ code ∧ asciiLimit ≤ other)
    codes others

namespace Tables

variable {t : Tables} {code other : Nat}

theorem step_congr (same : t.classOf code = t.classOf other) (state : Nat) :
    t.step state code = t.step state other :=
  congrArg (t.next state) same

theorem advance_congr (same : t.classOf code = t.classOf other) (state : Nat) :
    t.advance state code = t.advance state other := by
  rw [advance, advance, step_congr same, step_congr same]

end Tables

namespace Scan

variable {t : Tables} {s r : Scan} {code other : Nat} {codes others : List Nat}
variable {onsets beginnings : List Onset}

structure AlikeOnsets (o p : Onset) : Prop where
  start_eq : o.start = p.start
  state_eq : o.state = p.state
  joined_eq : o.joined = p.joined

structure Alike (s r : Scan) : Prop where
  offset_eq : s.offset = r.offset
  state_eq : s.state = r.state
  onsets : List.Forall₂ AlikeOnsets s.onsets r.onsets

theorem Alike.onsets_eq_nil_iff (alike : s.Alike r) : s.onsets = [] ↔ r.onsets = [] := by
  rw [← List.length_eq_zero_iff, alike.onsets.length_eq, List.length_eq_zero_iff]

theorem Alike.onset (alike : s.Alike r) (same : t.classOf code = t.classOf other) (after : Nat) :
    AlikeOnsets (s.onset t code after) (r.onset t other after) where
  start_eq := alike.offset_eq
  state_eq := rfl
  joined_eq := by
    have empty : s.onsets.isEmpty = r.onsets.isEmpty := by
      rw [Bool.eq_iff_iff, List.isEmpty_iff, List.isEmpty_iff, alike.onsets_eq_nil_iff]
    simp only [Scan.onset, empty, alike.state_eq, Tables.step_congr same]

theorem Alike.step (alike : s.Alike r) (same : t.classOf code = t.classOf other) :
    (s.step t code).Alike (r.step t other) := by
  have next : s.offset + 1 = r.offset + 1 := congrArg Nat.succ alike.offset_eq
  unfold Scan.step
  simp only [Tables.advance_congr same, alike.state_eq, ne_eq, alike.onsets_eq_nil_iff]
  split
  · exact ⟨next, rfl, alike.onsets⟩
  · exact ⟨next, rfl, .cons (alike.onset same _) alike.onsets⟩

theorem Alike.run (alike : s.Alike r) (same : t.SameClasses codes others) :
    (s.run t codes).Alike (r.run t others) := by
  induction same generalizing s r with
  | nil => exact alike
  | cons here _ ih => exact ih (alike.step here)

theorem close_congr (alike : List.Forall₂ AlikeOnsets onsets beginnings) (stop : Nat)
    (later : List Token) :
    close stop onsets later = close stop beginnings later := by
  induction alike generalizing stop later with
  | nil => rfl
  | cons here _ ih => rw [close, close, here.start_eq, here.state_eq, here.joined_eq, ih]

theorem Alike.tokens_eq (alike : s.Alike r) : s.tokens = r.tokens := by
  rw [tokens, tokens, alike.offset_eq, close_congr alike.onsets]

end Scan

namespace Tables

variable {codes others : List Nat}

theorem tokenize_of_sameClasses (t : Tables) (same : t.SameClasses codes others) :
    t.tokenize codes = t.tokenize others := by
  have alike : (Scan.start t).Alike (Scan.start t) := ⟨rfl, rfl, .nil⟩
  exact (alike.run same).tokens_eq

theorem sameClasses_of_sameInAscii (t : Tables) (same : SameInAscii codes others) :
    t.SameClasses codes others := by
  refine same.imp fun code other alike => ?_
  cases alike with
  | inl same => rw [same]
  | inr beyond => rw [t.classOf_of_le beyond.1, t.classOf_of_le beyond.2]

end Tables

section Words

variable {k : KeywordSet} {codes others : List Nat}

theorem SameInAscii.symm (same : SameInAscii codes others) : SameInAscii others codes :=
  same.flip.imp fun _ _ alike => alike.imp Eq.symm And.symm

theorem SameInAscii.eq_of_ascii (same : SameInAscii codes others)
    (ascii : ∀ code ∈ codes, code < asciiLimit) :
    codes = others := by
  induction same with
  | nil => rfl
  | cons alike _ ih =>
    have inside := ascii _ List.mem_cons_self
    have here := alike.resolve_right fun beyond => absurd inside (Nat.not_lt_of_le beyond.1)
    rw [here, ih fun code later => ascii code (List.mem_cons_of_mem _ later)]

def KeywordSet.Ascii (k : KeywordSet) : Prop :=
  ∀ word, k.contains word = true → ∀ code ∈ word.toList.map Char.toNat, code < asciiLimit

theorem KeywordSet.Ascii.spells_of_spells (ascii : k.Ascii) (same : SameInAscii codes others)
    (spelled : k.spells codes = true) : k.spells others = true := by
  obtain ⟨word, listed, rfl⟩ := spells_iff.1 spelled
  rw [← same.eq_of_ascii (ascii word listed)]
  exact spelled

theorem KeywordSet.Ascii.spells_eq (ascii : k.Ascii) (same : SameInAscii codes others) :
    k.spells codes = k.spells others :=
  Bool.eq_iff_iff.2 ⟨ascii.spells_of_spells same, ascii.spells_of_spells same.symm⟩

theorem KeywordSet.Ascii.keywords_eq (ascii : k.Ascii) (same : SameInAscii codes others)
    {token : Token} (inside : token.stop ≤ codes.length) (label : String) :
    Painter.keywords k codes.toArray token label =
      Painter.keywords k others.toArray token label := by
  by_cases identifier : label = "identifier"
  · have insideOther : token.stop ≤ others.length := same.length_eq ▸ inside
    have text : SameInAscii (codes.extract token.start token.stop)
        (others.extract token.start token.stop) := by
      rw [List.extract_eq_take_drop, List.extract_eq_take_drop]
      exact List.forall₂_take _ (List.forall₂_drop _ same)
    rw [identifier, Painter.keywords_identifier (by simpa using inside),
      Painter.keywords_identifier (by simpa using insideOther)]
    simp only [ascii.spells_eq text, text.length_eq]
  · rw [Painter.keywords_of_ne identifier, Painter.keywords_of_ne identifier]

end Words

/-- Texts whose characters have the same classes have the same tokens and the same labels. If they
differ beyond ASCII only, and the keywords are ASCII, then they are painted in the same way too. -/
theorem scan_of_classes {β γ : Type} [Buffer β] [Buffer γ] (h : Highlighter) (b : β) (c : γ) :
    let codes := (Buffer.cells b).codes
    let others := (Buffer.cells c).codes
    (h.tables.SameClasses codes others →
        h.tokenize b = h.tokenize c ∧
          h.tables.classify .labels codes.toArray = h.tables.classify .labels others.toArray) ∧
      (SameInAscii codes others → h.keywords.Ascii → h.classify b = h.classify c) := by
  intro codes others
  constructor
  · intro same
    have tokens : h.tables.tokenize codes = h.tables.tokenize others :=
      h.tables.tokenize_of_sameClasses same
    exact ⟨tokens, Tables.classify_congr tokens fun _ _ _ => rfl⟩
  · intro same ascii
    have tokens := h.tables.tokenize_of_sameClasses (h.tables.sameClasses_of_sameInAscii same)
    refine Tables.classify_congr tokens fun token label member => ?_
    exact ascii.keywords_eq same (Tables.bounds_of_mem_labelled member).2 label

theorem scan_of_classes_letters :
    let h : Highlighter := ⟨Language.c.tables, .ofList ["if"]⟩
    let b : Text.Passage := .ofString "if xé /*é*/"
    let c : Text.Passage := .ofString "if xλ /*ж*/"
    h.tokenize b = h.tokenize c ∧
      h.tables.classify .labels b.codes.toArray = h.tables.classify .labels c.codes.toArray ∧
      h.classify b = h.classify c := by
  intro h b c
  have same : SameInAscii b.codes c.codes := by decide +kernel
  have ascii : h.keywords.Ascii := by
    intro word listed
    have words : ∀ word ∈ ["if"], ∀ code ∈ word.toList.map Char.toNat, code < asciiLimit := by
      decide
    exact words word (List.contains_iff_mem.1 ((KeywordSet.contains_ofList _ _).symm.trans listed))
  obtain ⟨scanned, painted⟩ := scan_of_classes h b c
  exact ⟨(scanned (by decide +kernel)).1, (scanned (by decide +kernel)).2, painted same ascii⟩

end SyntaxPaint

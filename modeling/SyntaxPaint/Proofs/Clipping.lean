import SyntaxPaint.Proofs.History
import SyntaxPaint.Proofs.Lexeme

/-!
Scanning does not look ahead. The tokens of a text's beginning are those of the whole text that
begin in it, the last of them cut off at its end, so an edit leaves the tokens before it as they
are.
-/

namespace SyntaxPaint

open Text (Document)

/-- The tokens that begin before an offset; one that goes on behind it is cut off there. -/
def Token.clip (stop : Nat) (tokens : List Token) : List Token :=
  (tokens.filter fun token => token.start < stop).map fun token =>
    { token with stop := min token.stop stop }

namespace Token

variable {start stop last : Nat} {tokens : List Token} {token : Token}

theorem clip_append (stop : Nat) (before after : List Token) :
    clip stop (before ++ after) = clip stop before ++ clip stop after := by
  rw [clip, List.filter_append, List.map_append]
  rfl

theorem clip_singleton_of_le (outside : stop ≤ token.start) : clip stop [token] = [] := by
  rw [clip, List.filter_cons_of_neg (by simpa using outside)]
  rfl

theorem clip_singleton_of_lt (inside : token.start < stop) :
    clip stop [token] = [{ token with stop := min token.stop stop }] := by
  rw [clip, List.filter_cons_of_pos (by simpa using inside)]
  rfl

theorem clip_eq_self (covers : Contiguous Token.start Token.stop start last tokens)
    (early : last ≤ stop) :
    clip stop tokens = tokens := by
  have whole (token : Token) (member : token ∈ tokens) :
      token.start < stop ∧ token.stop ≤ stop := by
    obtain ⟨-, nonempty, bound⟩ := covers.bounds member
    omega
  have kept : tokens.filter (fun token => token.start < stop) = tokens :=
    List.filter_eq_self.2 fun token member => decide_eq_true (whole token member).1
  have uncut (token : Token) (member : token ∈ tokens) :
      { token with stop := min token.stop stop } = token := by
    rw [Nat.min_eq_left (whole token member).2]
  rw [clip, kept, List.map_congr_left uncut, List.map_id']

end Token

namespace Scan

variable {t : Tables} {s : Scan} {stop last : Nat} {onsets more : List Onset}

theorem exists_onsets_step (t : Tables) (s : Scan) (code : Nat) :
    ∃ more, (s.step t code).onsets = more ++ s.onsets ∧ ∀ o ∈ more, s.offset ≤ o.start := by
  unfold step
  dsimp only
  split
  · exact ⟨[], rfl, by simp⟩
  · refine ⟨[s.onset t code (t.advance s.state code)], rfl, fun o begun => ?_⟩
    rw [List.mem_singleton.1 begun]
    exact Nat.le_refl _

theorem exists_onsets_run (t : Tables) (s : Scan) (codes : List Nat) :
    ∃ more, (s.run t codes).onsets = more ++ s.onsets ∧ ∀ o ∈ more, s.offset ≤ o.start := by
  induction codes generalizing s with
  | nil => exact ⟨[], rfl, by simp⟩
  | cons code rest ih =>
    obtain ⟨first, begun, after⟩ := exists_onsets_step t s code
    obtain ⟨later, grown, afterLater⟩ := ih (s.step t code)
    refine ⟨later ++ first, ?_, fun o member => ?_⟩
    · rw [run_cons, grown, begun, List.append_assoc]
    · cases List.mem_append.1 member with
      | inl newer =>
        have bound := afterLater o newer
        rw [offset_step] at bound
        omega
      | inr older => exact after o older

theorem clip_close (descends : Descends stop onsets) (grown : stop ≤ last) :
    Token.clip stop (close last onsets []) = close stop onsets [] := by
  cases onsets with
  | nil => rfl
  | cons o before =>
    obtain ⟨begun, ended⟩ := descends
    -- Only the last token can reach beyond the cut; those before it end where it begins.
    have earlier : Contiguous Token.start Token.stop 0 o.start (close o.start before []) :=
      close_contiguous ended rfl
    rw [close_cons, close_cons, Token.clip_append, Token.clip_eq_self earlier (Nat.le_of_lt begun),
      Token.clip_singleton_of_lt begun]
    dsimp only
    rw [Nat.min_eq_right grown]

theorem clip_close_append (descends : Descends stop onsets) (after : ∀ o ∈ more, stop ≤ o.start)
    (grown : stop ≤ last) :
    Token.clip stop (close last (more ++ onsets) []) = close stop onsets [] := by
  induction more generalizing last with
  | nil => exact clip_close descends grown
  | cons o more ih =>
    have behind : stop ≤ o.start := after o List.mem_cons_self
    rw [List.cons_append, close_cons, Token.clip_append, Token.clip_singleton_of_le behind,
      List.append_nil]
    exact ih (fun o later => after o (List.mem_cons_of_mem _ later)) behind

theorem clip_tokens_run (descends : Descends s.offset s.onsets) (codes : List Nat) :
    Token.clip s.offset (s.run t codes).tokens = s.tokens := by
  obtain ⟨more, begun, after⟩ := exists_onsets_run t s codes
  rw [tokens, begun, offset_run]
  exact clip_close_append descends after (Nat.le_add_right _ _)

end Scan

namespace Tables

theorem clip_tokenize_append (t : Tables) (u v : List Nat) :
    Token.clip u.length (t.tokenize (u ++ v)) = t.tokenize u := by
  have kept : Token.clip (t.scan u).offset ((t.scan u).run t v).tokens = (t.scan u).tokens :=
    Scan.clip_tokens_run (t.descends_scan u) v
  rw [offset_scan] at kept
  rw [tokenize, scan, Scan.run_append]
  exact kept

theorem clip_tokenize (t : Tables) (codes : List Nat) (place : Nat) :
    Token.clip place (t.tokenize codes) = t.tokenize (codes.take place) := by
  by_cases inside : place ≤ codes.length
  · have whole := t.clip_tokenize_append (codes.take place) (codes.drop place)
    rwa [List.take_append_drop, List.length_take, Nat.min_eq_left inside] at whole
  · have beyond : codes.length ≤ place := by omega
    rw [List.take_of_length_le beyond, Token.clip_eq_self (t.tokenize_contiguous codes) beyond]

theorem clip_tokenize_of_take (t : Tables) {codes others : List Nat} {place : Nat}
    (same : codes.take place = others.take place) :
    Token.clip place (t.tokenize codes) = Token.clip place (t.tokenize others) := by
  rw [clip_tokenize, clip_tokenize, same]

end Tables

namespace Text.Document

/-- The place at which `replace` changes a text: an offset past the end means the end, and a start
past the stop means the stop. -/
def place (d : Document) (start stop : Nat) : Nat :=
  min start (min stop d.length)

theorem place_of_le {d : Document} {start stop : Nat} (ordered : start ≤ stop)
    (inside : start ≤ d.length) :
    d.place start stop = start := by
  unfold place
  omega

theorem place_le_length (d : Document) (start stop : Nat) : d.place start stop ≤ d.length := by
  unfold place
  omega

theorem take_chars_replace (d : Document) (start stop : Nat) (inserted : String) :
    (d.replace start stop inserted).chars.toList.take (d.place start stop) =
      d.chars.toList.take (d.place start stop) := by
  have size : (d.chars.toList.take (d.place start stop)).length = d.place start stop := by
    rw [List.length_take, Array.length_toList]
    exact Nat.min_eq_left (d.place_le_length start stop)
  have split : (d.replace start stop inserted).chars.toList =
      d.chars.toList.take (d.place start stop) ++
        (inserted.toList ++ d.chars.toList.drop (min stop d.length)) := by
    have rest : (d.chars.toList.drop (min stop d.chars.size)).length =
        d.chars.size - min stop d.chars.size := by
      rw [List.length_drop, Array.length_toList]
    simp [Document.replace, place, length, List.take_of_length_le (Nat.le_of_eq rest)]
  rw [split, List.take_append_of_le_length (Nat.le_of_eq size.symm),
    List.take_of_length_le (Nat.le_of_eq size)]

theorem Sound.take_codes_replace {d : Document} (sound : d.Sound) (start stop : Nat)
    (inserted : String) :
    (d.replace start stop inserted).cells.codes.take (d.place start stop) =
      d.cells.codes.take (d.place start stop) := by
  rw [(sound.replace start stop inserted).codes_cells, sound.codes_cells, ← List.map_take,
    ← List.map_take, take_chars_replace]

end Text.Document

/-- The tokens of a text are those that begin in it when more text follows, the last of them cut off
at its end. The tokens of a document before and after an edit are therefore the same up to the place
of the edit. -/
theorem tokenize_eq_clip (t : Tables) :
    (∀ u v : List Nat, t.tokenize u = Token.clip u.length (t.tokenize (u ++ v))) ∧
      ∀ (s : String) (changes : List Change) (start stop : Nat) (inserted : String),
        let d := Document.after s changes
        let place := d.place start stop
        (start ≤ stop → start ≤ d.length → place = start) ∧
          Token.clip place (t.tokenize (d.replace start stop inserted).cells.codes) =
            Token.clip place (t.tokenize d.cells.codes) := by
  refine ⟨fun u v => (t.clip_tokenize_append u v).symm, fun s changes start stop inserted => ?_⟩
  intro d place
  have sound : d.Sound := (Document.reached_after s changes).sound
  exact ⟨Document.place_of_le,
    t.clip_tokenize_of_take (sound.take_codes_replace start stop inserted)⟩

end SyntaxPaint

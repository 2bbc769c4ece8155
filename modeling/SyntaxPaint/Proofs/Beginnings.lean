import SyntaxPaint.Proofs.Partition
import SyntaxPaint.Proofs.TokenStates

/-!
Where tokens begin, and which of them are joined. Behind the first character, a token begins
wherever a character leads out of the state that it is read in, and nowhere else. A character that
ends a token is read a second time, and what it leads to then decides both questions: no token
begins there if it leads back to the state of the token that has ended, and a token that stays in
the ground state counts as joined.
-/

namespace SyntaxPaint

namespace Contiguous

variable {α : Type} {first last : α → Nat} {start stop : Nat} {items : List α} {item : α}

theorem exists_last_eq (covers : Contiguous first last start stop items) (member : item ∈ items)
    (later : start < first item) : ∃ before ∈ items, last before = first item := by
  induction items generalizing start with
  | nil => contradiction
  | cons head rest ih =>
    obtain ⟨begins, -, coversRest⟩ := covers
    cases List.mem_cons.1 member with
    | inl here =>
      rw [here] at later
      omega
    | inr below =>
      by_cases next : last head < first item
      · obtain ⟨before, listed, meets⟩ := ih coversRest below next
        exact ⟨before, List.mem_cons_of_mem _ listed, meets⟩
      · have after := (coversRest.bounds below).1
        exact ⟨head, List.mem_cons_self, by omega⟩

end Contiguous

/-- A character that ends the token before it: out of another state it leads to the ground state,
from which it is read again. -/
structure Reading.Ends (t : Tables) (r : Reading) : Prop where
  inside : r.source ≠ ground
  back : t.step r.source r.code = ground

/-- A token leads straight into another: it is the one before it, its state does not accept, and the
first character of the other is read once, without the ground state on either side. -/
structure Token.LeadsInto (t : Tables) (readings : List Reading) (before token : Token) : Prop where
  meets : before.stop = token.start
  rejects : t.accepts before.state = false
  inside : before.state ≠ ground
  goes : ∃ r, readings[token.start]? = some r ∧ t.step r.source r.code ≠ ground

namespace Scan

variable {t : Tables} {s : Scan} {codes : List Nat} {o : Onset} {token : Token}

def joins (t : Tables) (start source code state : Nat) : Bool :=
  start != 0 && source != ground && t.step source code == state

theorem joined_onset (descends : Descends s.offset s.onsets) (code after : Nat) :
    (s.onset t code after).joined = joins t s.offset s.state code after := by
  have begun : (!s.onsets.isEmpty) = (s.offset != 0) := by
    cases onsets : s.onsets with
    | nil =>
      rw [onsets] at descends
      have none : s.offset = 0 := descends
      simp [none]
    | cons o before =>
      rw [onsets] at descends
      have some : s.offset ≠ 0 := Nat.ne_of_gt (Nat.zero_lt_of_lt descends.1)
      simp [some]
  rw [onset, joins, begun]

theorem reading_of_mem_run (descends : Descends s.offset s.onsets)
    (member : o ∈ (s.run t codes).onsets) :
    o ∈ s.onsets ∨ o.joined = joins t o.start o.source o.code o.state ∧
      ∃ i, o.start = s.offset + i ∧ (s.readings t codes)[i]? =
        some ⟨o.source, o.code, o.state⟩ := by
  induction codes generalizing s with
  | nil => exact .inl member
  | cons code rest ih =>
    rw [run_cons] at member
    rcases ih (descends_step t descends code) member with before | ⟨joined, i, start, found⟩
    · by_cases stays : t.advance s.state code = s.state ∧ s.onsets ≠ []
      · rw [step_of_stays stays.1 stays.2] at before
        exact .inl before
      · rw [step_of_moves stays] at before
        rcases List.mem_cons.1 before with rfl | old
        · exact .inr ⟨joined_onset descends code _, 0, rfl, rfl⟩
        · exact .inl old
    · rw [offset_step] at start
      exact .inr ⟨joined, i + 1, by omega, found⟩

theorem exists_onset_of_mem_close {stop : Nat} {onsets : List Onset} {later : List Token}
    (member : token ∈ close stop onsets later) :
    token ∈ later ∨
      ∃ o ∈ onsets, token.start = o.start ∧ token.joined = o.joined := by
  induction onsets generalizing stop later with
  | nil => exact .inl member
  | cons o before ih =>
    rcases ih member with listed | ⟨onset, listed, same⟩
    · rcases List.mem_cons.1 listed with rfl | old
      · exact .inr ⟨o, List.mem_cons_self, rfl, rfl⟩
      · exact .inl old
    · exact .inr ⟨onset, List.mem_cons_of_mem _ listed, same⟩

end Scan

namespace Tables

variable {t : Tables} {codes : List Nat} {token before : Token} {i : Nat} {r : Reading}

theorem exists_reading_of_mem_tokenize (member : token ∈ t.tokenize codes) :
    ∃ r, (t.readings codes)[token.start]? = some r ∧
      token.joined = Scan.joins t token.start r.source r.code r.target := by
  have descends : Scan.Descends (Scan.start t).offset (Scan.start t).onsets := rfl
  rcases Scan.exists_onset_of_mem_close member with none | ⟨o, listed, start, joined⟩
  · contradiction
  · rcases Scan.reading_of_mem_run descends listed with none | ⟨told, i, offset, found⟩
    · contradiction
    · have first : o.start = i := offset.trans (Nat.zero_add i)
      rw [start, joined, told, first]
      exact ⟨_, found, rfl⟩

theorem source_of_last_eq (member : before ∈ t.tokenize codes)
    (found : (t.readings codes)[before.stop]? = some r) : r.source = t.resume before.state :=
  ((t.spans_of_mem_tokenize codes before member).behind r found).1

theorem exists_token_of_reading (found : (t.readings codes)[i]? = some r) :
    ∃ token ∈ t.tokenize codes, token.start ≤ i ∧ i < token.stop := by
  have size : (t.readings codes).length = codes.length := length_readings t _ codes
  have bound := (List.getElem?_eq_some_iff.1 found).1
  exact (t.tokenize_contiguous codes).exists_mem (Nat.zero_le i) (size ▸ bound)

theorem exists_start_iff (later : 0 < i) (found : (t.readings codes)[i]? = some r) :
    (∃ token ∈ t.tokenize codes, token.start = i) ↔ r.target ≠ r.source := by
  have covers := t.tokenize_contiguous codes
  constructor
  · rintro ⟨token, member, rfl⟩
    obtain ⟨before, listed, meets⟩ := covers.exists_last_eq member later
    rw [← meets] at found
    obtain ⟨source, target⟩ := (t.spans_of_mem_tokenize codes before listed).behind r found
    rwa [source]
  · intro moves
    obtain ⟨token, member, after, inside⟩ := exists_token_of_reading found
    refine ⟨token, member, ?_⟩
    by_contra other
    obtain ⟨source, target⟩ :=
      (t.spans_of_mem_tokenize codes token member).later i r (by omega) inside found
    exact moves (target.trans source.symm)

theorem accepts_source (later : 0 < i) (found : (t.readings codes)[i]? = some r)
    (inside : r.source ≠ ground) : t.accepts r.source = false := by
  obtain ⟨token, member, after, before⟩ := exists_token_of_reading found
  have resumes : ∃ state, r.source = t.resume state := by
    by_cases begins : token.start = i
    · subst begins
      obtain ⟨previous, listed, meets⟩ := (t.tokenize_contiguous codes).exists_last_eq member later
      exact ⟨previous.state, source_of_last_eq listed (meets ▸ found)⟩
    · exact ⟨token.state,
        ((t.spans_of_mem_tokenize codes token member).later i r (by omega) before found).1⟩
  obtain ⟨state, source⟩ := resumes
  rw [source] at inside ⊢
  cases accepts : t.accepts state with
  | true => exact absurd (resume_of_accepts accepts) inside
  | false =>
    have same : t.resume state = state := resume_of_not_accepts (by simp [accepts])
    rw [same, accepts]

theorem target_of_ends (found : (t.readings codes)[i]? = some r) (ends : r.Ends t) :
    r.target = t.step ground r.code := by
  rw [target_of_mem_readings (List.mem_of_getElem? found), advance, if_pos ends.back]

theorem exists_start_of_language (l : Language) (codes : List Nat) :
    ∀ i r, 0 < i → (l.tables.readings codes)[i]? = some r → r.Ends l.tables →
      ∃ token ∈ l.tables.tokenize codes, token.start = i := by
  intro i r later found ends
  have rejects := accepts_source later found ends.inside
  rw [exists_start_iff later found, target_of_ends found ends]
  exact l.restarts.no_return r.source r.code rejects ends.back

/-- Exactly when no character leads back to the state of the token that it ends, a token begins
wherever one has ended and the character leads on. -/
theorem begins_at_ends_iff (t : Tables) (codes : List Nat) :
    (∀ i r, 0 < i → (t.readings codes)[i]? = some r → r.Ends t → t.step ground r.code ≠ ground →
        ∃ token ∈ t.tokenize codes, token.start = i) ↔
      ∀ i r, 0 < i → (t.readings codes)[i]? = some r → r.Ends t →
        t.step ground r.code ≠ r.source := by
  constructor
  · intro begins i r later found ends same
    have leaves : t.step ground r.code ≠ ground := same ▸ ends.inside
    have moves := (exists_start_iff later found).1 (begins i r later found ends leaves)
    exact moves ((target_of_ends found ends).trans same)
  · intro apart i r later found ends _
    rw [exists_start_iff later found, target_of_ends found ends]
    exact apart i r later found ends

/-- The edges of `marks`, where the state that an `x` leads to does not accept, and plain text is
labelled. -/
def strokes : Tables :=
  let layout : Layout :=
    { marks.toLayout with name := "strokes", accept := #[false, false], labels := #["rest", ""] }
  ⟨layout, layout.fault?_eq_none_iff.1 (by decide +kernel)⟩

/-- The second `x` ends the token of the first one and goes on with it. -/
theorem not_begins_strokes :
    ¬∀ i r, 0 < i → (strokes.readings [120, 120])[i]? = some r → r.Ends strokes →
      strokes.step ground r.code ≠ ground →
        ∃ token ∈ strokes.tokenize [120, 120], token.start = i := by
  intro begins
  have ends : (⟨1, 120, 1⟩ : Reading).Ends strokes := ⟨by decide, by decide +kernel⟩
  obtain ⟨token, member, start⟩ :=
    begins 1 ⟨1, 120, 1⟩ (by decide) (by decide +kernel) ends (by decide +kernel)
  have whole : strokes.tokenize [120, 120] = [⟨0, 2, 1, false⟩] := by decide +kernel
  rw [whole, List.mem_singleton] at member
  rw [member] at start
  contradiction

theorem exists_leadsInto_iff (member : token ∈ t.tokenize codes)
    (found : (t.readings codes)[token.start]? = some r) :
    (∃ before ∈ t.tokenize codes, before.LeadsInto t (t.readings codes) token) ↔
      0 < token.start ∧ r.source ≠ ground ∧ t.step r.source r.code ≠ ground := by
  have covers := t.tokenize_contiguous codes
  constructor
  · rintro ⟨before, listed, meets, rejects, inside, first, read, goes⟩
    obtain rfl : r = first := Option.some.inj (found.symm.trans read)
    have nonempty := (covers.bounds listed).2.1
    have source : r.source = t.resume before.state := source_of_last_eq listed (meets ▸ found)
    rw [resume_of_not_accepts (by simp [rejects])] at source
    exact ⟨by omega, source ▸ inside, goes⟩
  · rintro ⟨later, inside, goes⟩
    obtain ⟨before, listed, meets⟩ := covers.exists_last_eq member later
    have source : r.source = t.resume before.state := source_of_last_eq listed (meets ▸ found)
    have rejects : ¬t.accepts before.state = true := fun accepts =>
      inside (source.trans (resume_of_accepts accepts))
    rw [source, resume_of_not_accepts rejects] at inside
    exact ⟨before, listed, meets, Bool.eq_false_iff.2 rejects, inside, r, found, goes⟩

theorem joined_eq_true_iff (member : token ∈ t.tokenize codes)
    (found : (t.readings codes)[token.start]? = some r) :
    token.joined = true ↔
      0 < token.start ∧ r.source ≠ ground ∧
        (t.step r.source r.code = ground → t.step ground r.code = ground) := by
  obtain ⟨first, read, joined⟩ := exists_reading_of_mem_tokenize member
  obtain rfl : r = first := Option.some.inj (found.symm.trans read)
  have target : r.target = t.advance r.source r.code :=
    target_of_mem_readings (List.mem_of_getElem? found)
  have straight : t.step r.source r.code = r.target ↔
      (t.step r.source r.code = ground → t.step ground r.code = ground) := by
    rw [target, advance]
    by_cases back : t.step r.source r.code = ground
    · rw [if_pos back, back]
      exact ⟨fun same _ => same.symm, fun kept => (kept rfl).symm⟩
    · rw [if_neg back]
      exact ⟨fun _ ended => absurd ended back, fun _ => rfl⟩
  simp only [joined, Scan.joins, Bool.and_eq_true, bne_iff_ne, beq_iff_eq, Nat.pos_iff_ne_zero,
    and_assoc, straight]

theorem joined_iff_of_language (l : Language) (codes : List Nat) :
    ∀ token ∈ l.tables.tokenize codes, token.joined = true ↔
      ∃ before ∈ l.tables.tokenize codes,
        before.LeadsInto l.tables (l.tables.readings codes) token := by
  intro token member
  obtain ⟨r, found, -⟩ := exists_reading_of_mem_tokenize member
  have leaves := l.restarts.leaves_ground r.code
  rw [joined_eq_true_iff member found, exists_leadsInto_iff member found]
  simp [leaves]

/-- Exactly when the ground state keeps no character that ends a token, the joined tokens are those
that the tokens before them lead straight into. -/
theorem joined_iff_leadsInto_iff (t : Tables) (codes : List Nat) :
    (∀ token ∈ t.tokenize codes, token.joined = true ↔
        ∃ before ∈ t.tokenize codes, before.LeadsInto t (t.readings codes) token) ↔
      ∀ i r, 0 < i → (t.readings codes)[i]? = some r → r.Ends t →
        t.step ground r.code ≠ ground := by
  constructor
  · intro joins i r later found ends kept
    have moves : r.target ≠ r.source := by
      rw [target_of_ends found ends, kept]
      exact ends.inside.symm
    obtain ⟨token, member, rfl⟩ := (exists_start_iff later found).2 moves
    have joined : token.joined = true :=
      (joined_eq_true_iff member found).2 ⟨later, ends.inside, fun _ => kept⟩
    obtain ⟨-, -, goes⟩ := (exists_leadsInto_iff member found).1 ((joins token member).1 joined)
    exact goes ends.back
  · intro leaves token member
    obtain ⟨r, found, -⟩ := exists_reading_of_mem_tokenize member
    rw [joined_eq_true_iff member found, exists_leadsInto_iff member found]
    constructor
    · rintro ⟨later, inside, kept⟩
      exact ⟨later, inside, fun back => leaves _ r later found ⟨inside, back⟩ (kept back)⟩
    · rintro ⟨later, inside, goes⟩
      exact ⟨later, inside, fun back => absurd back goes⟩

/-- The `y` ends the token of the `x` and stays in the ground state, and yet its token is joined. -/
theorem not_joined_iff_strokes :
    ¬∀ token ∈ strokes.tokenize [120, 121], token.joined = true ↔
      ∃ before ∈ strokes.tokenize [120, 121],
        before.LeadsInto strokes (strokes.readings [120, 121]) token := by
  intro joins
  have member : (⟨1, 2, 0, true⟩ : Token) ∈ strokes.tokenize [120, 121] := by decide +kernel
  obtain ⟨before, -, -, -, -, r, found, goes⟩ := (joins _ member).1 rfl
  have read : (strokes.readings [120, 121])[1]? = some ⟨1, 121, 0⟩ := by decide +kernel
  rw [read] at found
  cases found
  exact goes (by decide +kernel)

end Tables

end SyntaxPaint

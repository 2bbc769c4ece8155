import SyntaxPaint.Proofs.Coverage
import SyntaxPaint.Proofs.Edges

/-!
What the machine makes of each character of a text, and what a token says about its characters: the
first leads to its state, and the others stay in the state that the machine goes on from. That is
the token's own state unless it accepts, and then the ground state, which `tokens_constant_iff` is
about. In the built-in languages every character leads out of the ground state.
-/

namespace SyntaxPaint

structure Reading where
  source : Nat
  code : Nat
  target : Nat
deriving DecidableEq, Repr

/-- The state from which the next character is read after a token has begun in a state. -/
def Tables.resume (t : Tables) (state : Nat) : Nat :=
  if t.accepts state then ground else state

namespace Scan

def reading (t : Tables) (s : Scan) (code : Nat) : Reading :=
  ⟨s.state, code, t.advance s.state code⟩

def readings (t : Tables) (s : Scan) : List Nat → List Reading
  | [] => []
  | code :: rest => s.reading t code :: (s.step t code).readings t rest

end Scan

def Tables.readings (t : Tables) (codes : List Nat) : List Reading :=
  (Scan.start t).readings t codes

structure Token.Fits (t : Tables) (readings : List Reading) (token : Token) : Prop where
  first : ∃ source code, readings[token.start]? = some ⟨source, code, token.state⟩
  later : ∀ i r, token.start < i → i < token.stop → readings[i]? = some r →
    r.source = t.resume token.state ∧ r.target = t.resume token.state

structure Token.Spans (t : Tables) (readings : List Reading) (token : Token) : Prop extends
    Token.Fits t readings token where
  behind : ∀ r, readings[token.stop]? = some r →
    r.source = t.resume token.state ∧ r.target ≠ t.resume token.state

theorem target_of_mem_readings {t : Tables} {s : Scan} {codes : List Nat} {r : Reading}
    (member : r ∈ s.readings t codes) : r.target = t.advance r.source r.code := by
  induction codes generalizing s with
  | nil => contradiction
  | cons code rest ih =>
    cases List.mem_cons.1 member with
    | inl here => rw [here, Scan.reading]
    | inr later => exact ih later

theorem length_readings (t : Tables) (s : Scan) (codes : List Nat) :
    (s.readings t codes).length = codes.length := by
  induction codes generalizing s with
  | nil => rfl
  | cons code rest ih => simp [Scan.readings, ih]

namespace Token

variable {t : Tables} {readings : List Reading} {token : Token} {r : Reading}

theorem Fits.append (fits : token.Fits t readings) (nonempty : token.start < token.stop)
    (inside : token.stop ≤ readings.length) (more : List Reading) :
    token.Fits t (readings ++ more) where
  first := by
    obtain ⟨source, code, found⟩ := fits.first
    exact ⟨source, code, by rw [List.getElem?_append_left (by omega), found]⟩
  later i r after before found :=
    fits.later i r after before (by rwa [List.getElem?_append_left (by omega)] at found)

theorem Fits.extend (fits : token.Fits t readings) (nonempty : token.start < token.stop)
    (ends : token.stop = readings.length) (source : r.source = t.resume token.state)
    (target : r.target = t.resume token.state) :
    Token.Fits t (readings ++ [r]) { token with stop := token.stop + 1 } where
  first := (fits.append nonempty (Nat.le_of_eq ends) [r]).first
  later i next after before found := by
    by_cases last : i = readings.length
    · rw [last, List.getElem?_concat_length, Option.some.injEq] at found
      exact found ▸ ⟨source, target⟩
    · dsimp only at before
      exact (fits.append nonempty (Nat.le_of_eq ends) [r]).later i next after (by omega) found

theorem Fits.spans (fits : token.Fits t readings) (ends : readings.length ≤ token.stop) :
    token.Spans t readings where
  toFits := fits
  behind r found := by
    have bound := (List.getElem?_eq_some_iff.1 found).1
    omega

theorem Fits.close (fits : token.Fits t readings) (nonempty : token.start < token.stop)
    (ends : token.stop = readings.length) (source : r.source = t.resume token.state)
    (target : r.target ≠ t.resume token.state) : token.Spans t (readings ++ [r]) where
  toFits := fits.append nonempty (Nat.le_of_eq ends) [r]
  behind next found := by
    rw [ends, List.getElem?_concat_length, Option.some.injEq] at found
    exact found ▸ ⟨source, target⟩

theorem Spans.append (spans : token.Spans t readings) (nonempty : token.start < token.stop)
    (inside : token.stop < readings.length) (more : List Reading) :
    token.Spans t (readings ++ more) where
  toFits := spans.toFits.append nonempty (Nat.le_of_lt inside) more
  behind r found := spans.behind r (by rwa [List.getElem?_append_left inside] at found)

end Token

namespace Scan

variable {t : Tables} {s : Scan} {readings : List Reading} {stop : Nat} {onsets : List Onset}

def Spanned (t : Tables) (readings : List Reading) : (stop : Nat) → List Onset → Prop
  | _, [] => True
  | stop, o :: before =>
    Token.Spans t readings ⟨o.start, stop, o.state, o.joined⟩ ∧ Spanned t readings o.start before

theorem Spanned.append (spanned : Spanned t readings stop onsets) (descends : Descends stop onsets)
    (inside : stop < readings.length) (more : List Reading) :
    Spanned t (readings ++ more) stop onsets := by
  induction onsets generalizing stop with
  | nil => trivial
  | cons o before ih =>
    exact ⟨spanned.1.append descends.1 inside more,
      ih spanned.2 descends.2 (Nat.lt_trans descends.1 inside)⟩

theorem Spanned.close {later : List Token} (spanned : Spanned t readings stop onsets)
    (spans : ∀ token ∈ later, token.Spans t readings) :
    ∀ token ∈ close stop onsets later, token.Spans t readings := by
  induction onsets generalizing stop later with
  | nil => exact spans
  | cons o before ih => exact ih spanned.2 (List.forall_mem_cons.2 ⟨spanned.1, spans⟩)

structure Tells (t : Tables) (s : Scan) (readings : List Reading) : Prop where
  length_eq : readings.length = s.offset
  descends : Descends s.offset s.onsets
  spanned : Spanned t readings s.offset s.onsets
  state_eq : ∀ o ∈ s.onsets.head?, s.state = t.resume o.state

theorem tells_start (t : Tables) : (start t).Tells t [] :=
  ⟨rfl, rfl, trivial, by simp [start]⟩

theorem step_of_stays {code : Nat} (stays : t.advance s.state code = s.state)
    (some : s.onsets ≠ []) :
    s.step t code = { s with offset := s.offset + 1 } := by
  simp [step, stays, some]

theorem step_of_moves {code : Nat} (moves : ¬(t.advance s.state code = s.state ∧ s.onsets ≠ [])) :
    s.step t code = ⟨s.offset + 1, t.resume (t.advance s.state code),
      s.onset t code (t.advance s.state code) :: s.onsets⟩ := by
  unfold step
  dsimp only
  rw [if_neg moves]
  rfl

theorem Tells.fits_onset (tells : s.Tells t readings) (code : Nat) (joined : Bool) :
    Token.Fits t (readings ++ [s.reading t code])
      ⟨s.offset, s.offset + 1, t.advance s.state code, joined⟩ where
  first := ⟨s.state, code, by rw [← tells.length_eq, List.getElem?_concat_length]; rfl⟩
  later i r after before _ := by
    dsimp only at after before
    omega

theorem Tells.stay (tells : s.Tells t readings) {code : Nat}
    (stays : t.advance s.state code = s.state) (some : s.onsets ≠ []) :
    Tells t { s with offset := s.offset + 1 } (readings ++ [s.reading t code]) := by
  obtain ⟨o, before, onsets⟩ := List.exists_cons_of_ne_nil some
  obtain ⟨size, descends, spanned, state⟩ := tells
  rw [onsets] at descends spanned
  have source : s.state = t.resume o.state := state o (by rw [onsets]; rfl)
  have target : (s.reading t code).target = t.resume o.state := stays.trans source
  have grown := spanned.1.extend descends.1 size.symm source target
  have longer : (readings ++ [s.reading t code]).length = s.offset + 1 := by simp [size]
  have below : o.start < readings.length := size ▸ descends.1
  refine ⟨longer, ?_, ?_, state⟩
  · dsimp only
    rw [onsets]
    exact ⟨Nat.lt_succ_of_lt descends.1, descends.2⟩
  · dsimp only
    rw [onsets]
    exact ⟨grown.spans (Nat.le_of_eq longer), spanned.2.append descends.2 below _⟩

theorem Tells.spanned_of_moves (tells : s.Tells t readings) {code : Nat}
    (moves : ¬(t.advance s.state code = s.state ∧ s.onsets ≠ [])) :
    Spanned t (readings ++ [s.reading t code]) s.offset s.onsets := by
  obtain ⟨size, descends, spanned, state⟩ := tells
  cases onsets : s.onsets with
  | nil => trivial
  | cons o before =>
    rw [onsets] at descends spanned state moves
    have source : s.state = t.resume o.state := state o rfl
    have target : t.advance s.state code ≠ t.resume o.state := fun same =>
      moves ⟨same.trans source.symm, List.cons_ne_nil _ _⟩
    have below : o.start < readings.length := size ▸ descends.1
    exact ⟨spanned.1.close descends.1 size.symm source target, spanned.2.append descends.2 below _⟩

theorem Tells.move (tells : s.Tells t readings) {code : Nat}
    (moves : ¬(t.advance s.state code = s.state ∧ s.onsets ≠ [])) :
    Tells t ⟨s.offset + 1, t.resume (t.advance s.state code),
      s.onset t code (t.advance s.state code) :: s.onsets⟩ (readings ++ [s.reading t code]) := by
  have longer : (readings ++ [s.reading t code]).length = s.offset + 1 := by simp [tells.length_eq]
  refine ⟨longer, ⟨Nat.lt_succ_self _, tells.descends⟩, ⟨?_, tells.spanned_of_moves moves⟩, ?_⟩
  · exact (tells.fits_onset code _).spans (Nat.le_of_eq longer)
  · intro o first
    cases first
    rfl

theorem Tells.step (tells : s.Tells t readings) (code : Nat) :
    (s.step t code).Tells t (readings ++ [s.reading t code]) := by
  by_cases stays : t.advance s.state code = s.state ∧ s.onsets ≠ []
  · rw [step_of_stays stays.1 stays.2]
    exact tells.stay stays.1 stays.2
  · rw [step_of_moves stays]
    exact tells.move stays

theorem Tells.run (tells : s.Tells t readings) (codes : List Nat) :
    (s.run t codes).Tells t (readings ++ s.readings t codes) := by
  induction codes generalizing s readings with
  | nil => simpa [Scan.readings] using tells
  | cons code rest ih =>
    rw [run_cons, Scan.readings, List.append_cons]
    exact ih (tells.step code)

end Scan

structure Token.Constant (t : Tables) (readings : List Reading) (token : Token) : Prop where
  same : ∀ i, token.start ≤ i → i < token.stop →
    readings[i]?.map Reading.target = some token.state
  alone : t.accepts token.state = true → token.stop = token.start + 1

namespace Tables

variable {t : Tables} {codes : List Nat} {token : Token}

/-- The first character of a token leads to its state. On the others the machine stays in the state
from which it goes on, and the character behind the token leads out of it. -/
theorem spans_of_mem_tokenize (t : Tables) (codes : List Nat) :
    ∀ token ∈ t.tokenize codes, token.Spans t (t.readings codes) := by
  have tells : (t.scan codes).Tells t (t.readings codes) := (Scan.tells_start t).run codes
  exact tells.spanned.close (fun _ none => nomatch none)

theorem resume_of_accepts {state : Nat} (accepts : t.accepts state = true) :
    t.resume state = ground :=
  if_pos accepts

theorem resume_of_not_accepts {state : Nat} (accepts : ¬t.accepts state = true) :
    t.resume state = state :=
  if_neg accepts

theorem advance_ground (t : Tables) (code : Nat) : t.advance ground code = t.step ground code := by
  simp [advance]

theorem constant_of_leaves
    (leaves : ∀ i r next, (t.readings codes)[i]? = some r → (t.readings codes)[i + 1]? = some next →
      t.accepts r.target = true → t.step ground next.code ≠ ground) :
    ∀ token ∈ t.tokenize codes, token.Constant t (t.readings codes) := by
  intro token member
  have spans := t.spans_of_mem_tokenize codes token member
  obtain ⟨-, nonempty, inside⟩ := (t.tokenize_contiguous codes).bounds member
  have size : (t.readings codes).length = codes.length := length_readings t _ codes
  obtain ⟨source, code, first⟩ := spans.first
  have alone (accepts : t.accepts token.state = true) : token.stop = token.start + 1 := by
    refine Nat.le_antisymm (Nat.le_of_not_lt fun longer => ?_) nonempty
    have more : token.start + 1 < (t.readings codes).length := by omega
    have found := List.getElem?_eq_getElem more
    have later := spans.later _ _ (Nat.lt_succ_self _) longer found
    rw [resume_of_accepts accepts] at later
    have target := target_of_mem_readings (List.getElem_mem more)
    rw [later.1, later.2, advance_ground] at target
    exact leaves _ _ _ first found accepts target.symm
  refine ⟨fun i after before => ?_, alone⟩
  by_cases begins : i = token.start
  · rw [begins, first]
    rfl
  · have rejects : ¬t.accepts token.state = true := fun accepts => by
      have single := alone accepts
      omega
    have found := List.getElem?_eq_getElem (show i < (t.readings codes).length by omega)
    have later := spans.later i _ (by omega) before found
    rw [resume_of_not_accepts rejects] at later
    rw [found, Option.map_some, later.2]

theorem leaves_of_constant
    (constant : ∀ token ∈ t.tokenize codes, token.Constant t (t.readings codes)) {i : Nat}
    {r next : Reading} (here : (t.readings codes)[i]? = some r)
    (there : (t.readings codes)[i + 1]? = some next) (accepts : t.accepts r.target = true) :
    t.step ground next.code ≠ ground := by
  intro back
  have size : (t.readings codes).length = codes.length := length_readings t _ codes
  have inside : i < codes.length := size ▸ (List.getElem?_eq_some_iff.1 here).1
  obtain ⟨token, member, after, before⟩ :=
    (t.tokenize_contiguous codes).exists_mem (Nat.zero_le i) inside
  obtain ⟨same, alone⟩ := constant token member
  have state : r.target = token.state := by
    have led := same i after before
    rw [here] at led
    exact Option.some.inj led
  rw [state] at accepts
  have stop : token.stop = i + 1 := by
    have single := alone accepts
    omega
  -- The machine is back in the ground state, and the next character does not lead out of it.
  have behind := (t.spans_of_mem_tokenize codes token member).behind next (stop ▸ there)
  rw [resume_of_accepts accepts] at behind
  have target := target_of_mem_readings (List.mem_of_getElem? there)
  rw [behind.1, advance_ground, back] at target
  exact behind.2 target

theorem constant_of_language (l : Language) (codes : List Nat) :
    ∀ token ∈ l.tables.tokenize codes, token.Constant l.tables (l.tables.readings codes) :=
  constant_of_leaves fun _ _ next _ _ _ => l.restarts.leaves_ground next.code

/-- Exactly when no character that the ground state keeps follows one that leads to a state that
accepts, each token has its characters in one state, and one character only if that state
accepts. -/
theorem tokens_constant_iff (t : Tables) (codes : List Nat) :
    (∀ token ∈ t.tokenize codes, token.Constant t (t.readings codes)) ↔
      ∀ i r next, (t.readings codes)[i]? = some r → (t.readings codes)[i + 1]? = some next →
        t.accepts r.target = true → t.step ground next.code ≠ ground := by
  constructor
  · intro constant i r next here there accepts
    exact leaves_of_constant constant here there accepts
  · intro leaves
    exact constant_of_leaves leaves

/-- One state besides the ground state, which an `x` leads to and which accepts. -/
def marks : Tables :=
  let layout : Layout :=
    { name := "marks"
      numStates := 2
      numClasses := 2
      classes := Layout.classMap (List.replicate 120 0 ++ [1])
      accept := #[false, true]
      labels := #["", "mark"]
      transitions := #[0, 1, 0, 0]
      numStates_lt := by decide
      numClasses_lt := by decide }
  ⟨layout, layout.fault?_eq_none_iff.1 (by decide +kernel)⟩

/-- The token of an `x` takes a `y` in, which the ground state keeps. -/
theorem not_constant_marks :
    ¬∀ token ∈ marks.tokenize [120, 121], token.Constant marks (marks.readings [120, 121]) := by
  intro constant
  have member : (⟨0, 2, 1, false⟩ : Token) ∈ marks.tokenize [120, 121] := by decide +kernel
  have single : 2 = 0 + 1 := (constant _ member).alone (by decide +kernel)
  exact absurd single (by decide)

end Tables

end SyntaxPaint

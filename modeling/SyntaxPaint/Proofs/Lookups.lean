import SyntaxPaint.Proofs.Coverage
import SyntaxPaint.Scan.Machine
import SyntaxPaint.Tables.Binary
import SyntaxPaint.Tables.Language
import SyntaxPaint.Tables.Record

/-!
Look-ups that check their index before they use it, on layouts that nobody need have checked. A
layout that tables come from passes all of these checks, in whatever order a machine is used and
whatever text is scanned, so that the look-ups of `Tables` never fall back on a default.
-/

namespace SyntaxPaint

open Text (Bytes Stretch coalesce)

namespace Layout

def classOf? (l : Layout) (code : Nat) : Option Nat :=
  if code < asciiLimit then l.classes.toArray[code]? else some 0

/-- The successor of a state on a class, if there are such a state, such a class and such a
transition. -/
def next? (l : Layout) (state cls : Nat) : Option Nat :=
  if state < l.numStates ∧ cls < l.numClasses then
    l.transitions[state * l.numClasses + cls]?
  else none

def accepts? (l : Layout) (state : Nat) : Option Bool :=
  l.accept[state]?

def label? (l : Layout) (state : Nat) : Option String :=
  l.labels[state]?

def step? (l : Layout) (state code : Nat) : Option Nat := do
  l.next? state (← l.classOf? code)

def advance? (l : Layout) (state code : Nat) : Option Nat := do
  let after ← l.step? state code
  if after = ground then l.step? after code else return after

def reset? (l : Layout) (state : Nat) : Option Nat :=
  if state < l.numStates then some state else none

end Layout

namespace Machine

inductive Call
  | update (code : Nat)
  | advance (code : Nat)
  | reset (state : Nat)

def call? (m : Machine) : Call → Option Machine
  | .update code => some (m.update code)
  | .advance code => some (m.advance code)
  | .reset state => m.reset? state

end Machine

namespace Layout

def call? (l : Layout) (state : Nat) : Machine.Call → Option Nat
  | .update code => l.step? state code
  | .advance code => l.advance? state code
  | .reset target => l.reset? target

end Layout

namespace Scan

def start? (l : Layout) : Option Scan := do
  let state ← l.reset? ground
  return ⟨0, ← l.step? state lineBreak, []⟩

def joined? (l : Layout) (s : Scan) (code after : Nat) : Option Bool :=
  if s.onsets.isEmpty ∨ s.state = ground then some false
  else do return (← l.step? s.state code) == after

def step? (l : Layout) (s : Scan) (code : Nat) : Option Scan := do
  let after ← l.advance? s.state code
  if after = s.state ∧ s.onsets ≠ [] then return { s with offset := s.offset + 1 }
  else
    let joined ← s.joined? l code after
    let state ← if ← l.accepts? after then l.reset? ground else some after
    return ⟨s.offset + 1, state, ⟨s.offset, s.state, code, after, joined⟩ :: s.onsets⟩

end Scan

namespace Layout

def tokenize? (l : Layout) (codes : List Nat) : Option (List Token) := do
  let s ← codes.foldlM (Scan.step? l) (← Scan.start? l)
  return s.tokens

def labelBefore? (l : Layout) (token : Token) (later : List (Token × String)) :
    Option (List (Token × String)) := do
  let own ← l.label? token.state
  match later with
  | [] => return [(token, own)]
  | next :: rest => return (token, if own = "" ∧ next.1.joined then next.2 else own) :: next :: rest

/-- A token under the tag that a painter gives it, if it has characters and the text has all of
them. -/
def paint? (painter : Painter) (codes : Array Nat) (p : Token × String) : Option Stretch :=
  if p.1.start < p.1.stop ∧ p.1.stop ≤ codes.size then
    some ⟨p.1.start, p.1.stop, painter codes p.1 p.2⟩
  else none

def classify? (l : Layout) (painter : Painter) (codes : Array Nat) : Option (List Stretch) := do
  let tokens ← l.tokenize? codes.toList
  let labelled ← tokens.foldrM l.labelBefore? []
  return coalesce (← labelled.mapM (paint? painter codes))

end Layout

namespace Tables

variable {t : Tables} {state cls : Nat}

theorem ground_lt (t : Tables) : ground < t.numStates :=
  t.valid.states_pos

theorem classOf?_eq (t : Tables) (code : Nat) :
    t.toLayout.classOf? code = some (t.classOf code) := by
  unfold Layout.classOf? classOf
  by_cases ascii : code < asciiLimit
  · have inside : code < t.classes.toArray.size := by
      rw [Vector.size_toArray]
      exact Nat.lt_trans ascii (by decide)
    rw [if_pos ascii, if_pos ascii, Array.getD_eq_getD_getElem?, Array.getElem?_eq_getElem inside]
    rfl
  · rw [if_neg ascii, if_neg ascii]

theorem next?_eq (inside : state < t.numStates) (known : cls < t.numClasses) :
    t.toLayout.next? state cls = some (t.next state cls) := by
  have entry : state * t.numClasses + cls < t.transitions.size := by
    rw [t.valid.transitions_size]
    exact Layout.index_lt inside known
  simp [Layout.next?, next, inside, known, entry]

theorem accepts?_eq (inside : state < t.numStates) :
    t.toLayout.accepts? state = some (t.accepts state) := by
  have entry : state < t.accept.size := t.valid.accept_size.symm ▸ inside
  simp [Layout.accepts?, accepts, entry]

theorem label?_eq (inside : state < t.numStates) :
    t.toLayout.label? state = some (t.label state) := by
  have entry : state < t.labels.size := t.valid.labels_size.symm ▸ inside
  simp [Layout.label?, label, entry]

theorem step?_eq (inside : state < t.numStates) (code : Nat) :
    t.toLayout.step? state code = some (t.step state code) := by
  rw [Layout.step?, t.classOf?_eq]
  exact next?_eq inside (t.classOf_lt code)

theorem advance?_eq (inside : state < t.numStates) (code : Nat) :
    t.toLayout.advance? state code = some (t.advance state code) := by
  simp only [Layout.advance?, step?_eq inside, advance, Option.bind_eq_bind, Option.bind_some]
  by_cases back : t.step state code = ground
  · rw [if_pos back, if_pos back, back, step?_eq t.ground_lt]
  · rw [if_neg back, if_neg back]
    rfl

theorem reset?_eq (inside : state < t.numStates) : t.toLayout.reset? state = some state :=
  if_pos inside

end Tables

namespace Machine

variable {m : Machine}

def Call.Known (t : Tables) : Call → Prop
  | .reset state => state < t.numStates
  | .update _ | .advance _ => True

theorem exists_call? (inside : m.state < m.tables.numStates) {call : Call}
    (known : call.Known m.tables) :
    ∃ after : Machine, m.call? call = some after ∧ after.tables = m.tables ∧
      m.tables.toLayout.call? m.state call = some after.state ∧
      after.state < m.tables.numStates := by
  cases call with
  | update code => exact ⟨_, rfl, rfl, Tables.step?_eq inside code, m.tables.step_lt _ _⟩
  | advance code => exact ⟨_, rfl, rfl, Tables.advance?_eq inside code, m.tables.advance_lt _ _⟩
  | reset state => exact ⟨_, if_pos known, rfl, Tables.reset?_eq known, known⟩

theorem exists_foldlM_call? (inside : m.state < m.tables.numStates) {calls : List Call}
    (known : ∀ call ∈ calls, call.Known m.tables) :
    ∃ after : Machine, calls.foldlM call? m = some after ∧ after.tables = m.tables ∧
      calls.foldlM m.tables.toLayout.call? m.state = some after.state ∧
        after.state < m.tables.numStates := by
  induction calls generalizing m with
  | nil => exact ⟨m, rfl, rfl, rfl, inside⟩
  | cons call calls ih =>
    obtain ⟨knownCall, knownCalls⟩ := List.forall_mem_cons.1 known
    obtain ⟨between, done, same, state, insideBetween⟩ := exists_call? inside knownCall
    rw [← same] at insideBetween knownCalls
    obtain ⟨after, doneRest, sameRest, stateRest, insideAfter⟩ := ih insideBetween knownCalls
    rw [same] at sameRest stateRest insideAfter
    refine ⟨after, ?_, sameRest, ?_, insideAfter⟩
    · rw [List.foldlM_cons, done]
      exact doneRest
    · rw [List.foldlM_cons, state]
      exact stateRest

end Machine

namespace Scan

variable {t : Tables} {s : Scan}

structure InRange (t : Tables) (s : Scan) : Prop where
  state_lt : s.state < t.numStates
  onsets_lt : ∀ o ∈ s.onsets, o.state < t.numStates

theorem inRange_start (t : Tables) : (start t).InRange t where
  state_lt := t.step_lt _ _
  onsets_lt := by simp [start]

theorem InRange.step (inRange : s.InRange t) (code : Nat) : (s.step t code).InRange t := by
  have after := t.advance_lt s.state code
  unfold Scan.step
  dsimp only
  split
  · exact ⟨inRange.state_lt, inRange.onsets_lt⟩
  · refine ⟨?_, List.forall_mem_cons.2 ⟨after, inRange.onsets_lt⟩⟩
    dsimp only
    split
    · exact t.ground_lt
    · exact after

theorem InRange.run (inRange : s.InRange t) (codes : List Nat) : (s.run t codes).InRange t := by
  induction codes generalizing s with
  | nil => exact inRange
  | cons code rest ih => exact ih (inRange.step code)

theorem start?_eq (t : Tables) : start? t.toLayout = some (start t) := by
  simp [start?, start, Tables.reset?_eq t.ground_lt, Tables.step?_eq t.ground_lt]

theorem joined?_eq (inside : s.state < t.numStates) (code after : Nat) :
    s.joined? t.toLayout code after = some (s.onset t code after).joined := by
  unfold joined? onset
  by_cases apart : s.onsets.isEmpty ∨ s.state = ground
  · rw [if_pos apart]
    rcases apart with none | back
    · simp [none]
    · simp [back]
  · rw [if_neg apart, Tables.step?_eq inside]
    simp only [not_or] at apart
    simp [apart]

theorem step?_eq (inRange : s.InRange t) (code : Nat) :
    s.step? t.toLayout code = some (s.step t code) := by
  have after := t.advance_lt s.state code
  simp only [step?, step, Tables.advance?_eq inRange.state_lt, joined?_eq inRange.state_lt,
    Tables.accepts?_eq after, Tables.reset?_eq t.ground_lt, Option.bind_eq_bind, Option.bind_some]
  split
  · rfl
  · split <;> rfl

theorem foldlM_step?_eq (inRange : s.InRange t) (codes : List Nat) :
    codes.foldlM (step? t.toLayout) s = some (s.run t codes) := by
  induction codes generalizing s with
  | nil => rfl
  | cons code rest ih =>
    rw [List.foldlM_cons, step?_eq inRange]
    exact ih (inRange.step code)

theorem forall_state_close {P : Nat → Prop} {stop : Nat} {onsets : List Onset} {later : List Token}
    (begun : ∀ o ∈ onsets, P o.state) (ended : ∀ token ∈ later, P token.state) :
    ∀ token ∈ close stop onsets later, P token.state := by
  induction onsets generalizing stop later with
  | nil => exact ended
  | cons o before ih =>
    obtain ⟨here, below⟩ := List.forall_mem_cons.1 begun
    exact ih below (List.forall_mem_cons.2 ⟨here, ended⟩)

end Scan

theorem mapM_eq_some_map {α β : Type} {f : α → Option β} {g : α → β} {items : List α}
    (each : ∀ item ∈ items, f item = some (g item)) : items.mapM f = some (items.map g) := by
  induction items with
  | nil => rfl
  | cons item items ih =>
    obtain ⟨here, below⟩ := List.forall_mem_cons.1 each
    simp [here, ih below]

namespace Tables

theorem tokenize?_eq (t : Tables) (codes : List Nat) :
    t.toLayout.tokenize? codes = some (t.tokenize codes) := by
  simp only [Layout.tokenize?, Scan.start?_eq, Option.bind_eq_bind, Option.bind_some,
    Scan.foldlM_step?_eq (Scan.inRange_start t)]
  rfl

theorem state_lt_of_mem_tokenize (t : Tables) (codes : List Nat) :
    ∀ token ∈ t.tokenize codes, token.state < t.numStates :=
  Scan.forall_state_close (P := (· < t.numStates)) ((Scan.inRange_start t).run codes).onsets_lt
    fun _ none => nomatch none

theorem foldrM_labelBefore?_eq {t : Tables} {tokens : List Token}
    (inside : ∀ token ∈ tokens, token.state < t.numStates) :
    tokens.foldrM t.toLayout.labelBefore? [] = some (t.labelled tokens) := by
  induction tokens with
  | nil => rfl
  | cons token later ih =>
    obtain ⟨here, below⟩ := List.forall_mem_cons.1 inside
    rw [List.foldrM_cons, ih below, labelled_cons]
    simp only [Layout.labelBefore?, label?_eq here, labelBefore, Option.bind_eq_bind,
      Option.bind_some]
    cases t.labelled later <;> rfl

theorem classify?_eq (t : Tables) (painter : Painter) (codes : Array Nat) :
    t.toLayout.classify? painter codes = some (t.classify painter codes) := by
  have painted : (t.labelled (t.tokenize codes.toList)).mapM (Layout.paint? painter codes) =
      some ((t.labelled (t.tokenize codes.toList)).map fun p =>
        ⟨p.1.start, p.1.stop, painter codes p.1 p.2⟩) :=
    mapM_eq_some_map fun p member => if_pos (bounds_of_mem_labelled member)
  simp only [Layout.classify?, tokenize?_eq, foldrM_labelBefore?_eq (t.state_lt_of_mem_tokenize _),
    painted, Option.bind_eq_bind, Option.bind_some]
  rfl

end Tables

inductive Origin
  | layout (l : Layout)
  | automaton (a : Automaton)
  | binary (b : Bytes)
  | record (b : Bytes)

namespace Origin

def unchecked : Origin → Except Error Layout
  | .layout l => .ok l
  | .automaton a =>
    if few : a.states.size < 65536 then .ok (a.layout few)
    else fail (.stateCount a.name a.states.size)
  | .binary b => Prod.fst <$> Binary.Read.layout b
  | .record b => during "failed to parse tables JSON" (Record.form.read.document b)

def tables : Origin → Except Error Tables
  | .layout l => l.check
  | .automaton a => a.tables
  | .binary b => Binary.decode b
  | .record b => Record.decode b

theorem tables_eq (o : Origin) : o.tables = o.unchecked >>= Layout.check := by
  cases o with
  | layout l => rfl
  | automaton a =>
    simp only [tables, Automaton.tables, unchecked]
    split <;> rfl
  | binary b =>
    simp only [tables, Binary.decode, unchecked]
    cases Binary.Read.layout b <;> rfl
  | record b => rfl

theorem unchecked_of_tables {o : Origin} {t : Tables} (made : o.tables = .ok t) :
    o.unchecked = .ok t.toLayout := by
  rw [tables_eq] at made
  cases read : o.unchecked with
  | error e =>
    rw [read] at made
    contradiction
  | ok l =>
    rw [read] at made
    rw [Layout.toLayout_of_check made]

end Origin

/-- No look-up is out of range. Any calls that reset a machine to its own states only keep it in its
states, and every index that they use exists, as it does when a text is scanned and when its tokens
are painted. -/
theorem lookups_in_range (o : Origin) (t : Tables) (made : o.tables = .ok t) :
    o.unchecked = .ok t.toLayout ∧
      (∀ calls : List Machine.Call, (∀ call ∈ calls, call.Known t) →
        ∃ m : Machine, calls.foldlM Machine.call? (.new t) = some m ∧
          calls.foldlM t.toLayout.call? ground = some m.state ∧ m.state < t.numStates ∧
          t.toLayout.accepts? m.state = some (t.accepts m.state) ∧
          t.toLayout.label? m.state = some (t.label m.state)) ∧
      (∀ codes, t.toLayout.tokenize? codes = some (t.tokenize codes)) ∧
      ∀ painter codes, t.toLayout.classify? painter codes = some (t.classify painter codes) := by
  refine ⟨Origin.unchecked_of_tables made, fun calls known => ?_, t.tokenize?_eq, t.classify?_eq⟩
  obtain ⟨m, done, -, state, inside⟩ := Machine.exists_foldlM_call? (m := .new t) t.ground_lt known
  exact ⟨m, done, state, inside, Tables.accepts?_eq inside, Tables.label?_eq inside⟩

/-- A quote, a character beyond ASCII, a reset to the state behind a string, and another quote. -/
theorem lookups_in_range_string :
    let t := Language.string.tables
    let calls : List Machine.Call := [.update 34, .advance 12354, .reset 2, .advance 34]
    (Origin.automaton Language.string.automaton).tables = .ok t ∧
      (∀ call ∈ calls, call.Known t) ∧
      (∃ m : Machine, calls.foldlM Machine.call? (.new t) = some m ∧
        calls.foldlM t.toLayout.call? ground = some m.state ∧ m.state < t.numStates) ∧
      t.toLayout.tokenize? [34, 12354, 34] = some (t.tokenize [34, 12354, 34]) := by
  intro t calls
  have made : (Origin.automaton Language.string.automaton).tables = .ok t :=
    Language.tables_automaton .string
  have known : ∀ call ∈ calls, call.Known t := by
    have inside : 2 < t.numStates := by decide +kernel
    simpa [calls, Machine.Call.Known] using inside
  obtain ⟨-, machine, tokens, -⟩ := lookups_in_range _ t made
  obtain ⟨m, done, state, inside, -⟩ := machine calls known
  exact ⟨made, known, ⟨m, done, state, inside⟩, tokens _⟩

end SyntaxPaint

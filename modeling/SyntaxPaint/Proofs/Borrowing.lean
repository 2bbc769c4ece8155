import Mathlib.Order.Bounds.Basic
import SyntaxPaint.Proofs.Coverage

/-!
Where the label of a token comes from. A token without a label borrows the nearest one of those
joined behind it, through any number of tokens that have none either, and never from behind a token
that is not joined.
-/

namespace SyntaxPaint.Tables

open Text (coalesce)

/-- The tokens that can lend a label to the one at `i`: they have a label, and from there up to them
all tokens are joined. -/
def lenders (t : Tables) (tokens : List Token) (i : Nat) : Set Nat :=
  {j | i < j ∧ (∃ lender, tokens[j]? = some lender ∧ t.label lender.state ≠ "") ∧
    ∀ k, i < k → k ≤ j → ∃ token, tokens[k]? = some token ∧ token.joined = true}

/-- The label under which the token at `i` is painted: its own one, or else that of the first token
that can lend one, or else none. -/
inductive Resolves (t : Tables) (tokens : List Token) (i : Nat) : String → Prop
  | own {token : Token} (here : tokens[i]? = some token) (labelled : t.label token.state ≠ "") :
      Resolves t tokens i (t.label token.state)
  | borrowed {token lender : Token} {j : Nat} (here : tokens[i]? = some token)
      (bare : t.label token.state = "")
      (first : IsLeast (t.lenders tokens i) j) (there : tokens[j]? = some lender) :
      Resolves t tokens i (t.label lender.state)
  | none {token : Token} (here : tokens[i]? = some token) (bare : t.label token.state = "")
      (nobody : t.lenders tokens i = ∅) : Resolves t tokens i ""

variable {t : Tables} {tokens later : List Token} {token next : Token} {label other : String}
variable {i j k : Nat}

section Lenders

theorem lenders_eq_empty (apart : ∀ next, tokens[i + 1]? = some next → next.joined = false) :
    t.lenders tokens i = ∅ := by
  rw [Set.eq_empty_iff_forall_notMem]
  rintro j ⟨after, -, chained⟩
  obtain ⟨next, behind, joined⟩ := chained (i + 1) (Nat.lt_succ_self _) after
  rw [apart next behind] at joined
  contradiction

theorem isLeast_lenders (behind : tokens[i + 1]? = some next) (joined : next.joined = true)
    (labelled : t.label next.state ≠ "") : IsLeast (t.lenders tokens i) (i + 1) := by
  refine ⟨⟨Nat.lt_succ_self _, ⟨next, behind, labelled⟩, fun k after before => ?_⟩,
    fun j lends => lends.1⟩
  obtain rfl : k = i + 1 := Nat.le_antisymm before after
  exact ⟨next, behind, joined⟩

theorem lenders_succ (behind : tokens[i + 1]? = some next) (joined : next.joined = true)
    (bare : t.label next.state = "") : t.lenders tokens i = t.lenders tokens (i + 1) := by
  ext j
  constructor
  · rintro ⟨after, ⟨lender, there, labelled⟩, chained⟩
    have further : i + 1 ≠ j := by
      rintro rfl
      obtain rfl := Option.some.inj (behind.symm.trans there)
      exact labelled bare
    exact ⟨Nat.lt_of_le_of_ne after further, ⟨lender, there, labelled⟩,
      fun k after => chained k (Nat.lt_of_succ_lt after)⟩
  · rintro ⟨after, lends, chained⟩
    refine ⟨Nat.lt_of_succ_lt after, lends, fun k onward before => ?_⟩
    rcases Nat.eq_or_lt_of_le (Nat.succ_le_of_lt onward) with rfl | beyond
    · exact ⟨next, behind, joined⟩
    · exact chained k beyond before

end Lenders

theorem Resolves.before (resolves : t.Resolves tokens (i + 1) label)
    (here : tokens[i]? = some token) (bare : t.label token.state = "")
    (behind : tokens[i + 1]? = some next) (joined : next.joined = true) :
    t.Resolves tokens i label := by
  cases resolves with
  | own found labelled =>
    obtain rfl := Option.some.inj (behind.symm.trans found)
    exact .borrowed here bare (isLeast_lenders behind joined labelled) behind
  | borrowed found bareNext first there =>
    obtain rfl := Option.some.inj (behind.symm.trans found)
    rw [← lenders_succ behind joined bareNext] at first
    exact .borrowed here bare first there
  | none found bareNext nobody =>
    obtain rfl := Option.some.inj (behind.symm.trans found)
    rw [← lenders_succ behind joined bareNext] at nobody
    exact .none here bare nobody

theorem Resolves.exists_token (resolves : t.Resolves tokens i label) :
    ∃ token, tokens[i]? = some token := by
  cases resolves with
  | own here _ | borrowed here _ _ _ | none here _ _ => exact ⟨_, here⟩

theorem Resolves.unique (resolves : t.Resolves tokens i label) (also : t.Resolves tokens i other) :
    label = other := by
  cases resolves with
  | own here labelled =>
    cases also with
    | own found _ =>
      obtain rfl := Option.some.inj (here.symm.trans found)
      rfl
    | borrowed found bare _ _ | none found bare _ =>
      obtain rfl := Option.some.inj (here.symm.trans found)
      exact absurd bare labelled
  | borrowed here bare first there =>
    cases also with
    | own found labelled =>
      obtain rfl := Option.some.inj (here.symm.trans found)
      exact absurd bare labelled
    | borrowed _ _ firstAlso thereAlso =>
      obtain rfl := first.unique firstAlso
      obtain rfl := Option.some.inj (there.symm.trans thereAlso)
      rfl
    | none _ _ nobody => exact absurd (nobody ▸ first.1) (Set.notMem_empty _)
  | none here bare nobody =>
    cases also with
    | own found labelled =>
      obtain rfl := Option.some.inj (here.symm.trans found)
      exact absurd bare labelled
    | borrowed _ _ first _ => exact absurd (nobody ▸ first.1) (Set.notMem_empty _)
    | none => rfl

theorem resolves_own (here : tokens[i]? = some token)
    (alone : t.label token.state = "" → ∀ next, tokens[i + 1]? = some next → next.joined = false) :
    t.Resolves tokens i (t.label token.state) := by
  by_cases bare : t.label token.state = ""
  · rw [bare]
    exact .none here bare (lenders_eq_empty (alone bare))
  · exact .own here bare

theorem exists_labelled_resolves (rest : tokens.drop i = token :: later) :
    ∃ label, t.labelled (token :: later) = (token, label) :: t.labelled later ∧
      t.Resolves tokens i label := by
  have here : tokens[i]? = some token := by rw [← List.head?_drop, rest, List.head?_cons]
  induction later generalizing token i with
  | nil =>
    refine ⟨t.label token.state, rfl, resolves_own here fun _ next found => ?_⟩
    rw [← List.head?_drop, ← List.tail_drop, rest] at found
    contradiction
  | cons next later ih =>
    have restNext : tokens.drop (i + 1) = next :: later := by
      rw [← List.tail_drop, rest, List.tail_cons]
    have behind : tokens[i + 1]? = some next := by rw [← List.head?_drop, restNext, List.head?_cons]
    obtain ⟨label, labels, resolves⟩ := ih restNext behind
    rw [labelled_cons, labels, labelBefore]
    by_cases borrows : t.label token.state = "" ∧ next.joined = true
    · exact ⟨label, by simp [borrows], resolves.before here borrows.1 behind borrows.2⟩
    · refine ⟨t.label token.state, by simp [borrows], resolves_own here fun bare other found => ?_⟩
      obtain rfl := Option.some.inj (behind.symm.trans found)
      exact Bool.eq_false_iff.2 fun joined => borrows ⟨bare, joined⟩

theorem tail_labelled (t : Tables) (token : Token) (later : List Token) :
    (t.labelled (token :: later)).tail = t.labelled later := by
  rw [labelled_cons]
  cases t.labelled later <;> rfl

theorem drop_labelled (t : Tables) (tokens : List Token) (i : Nat) :
    (t.labelled tokens).drop i = t.labelled (tokens.drop i) := by
  induction tokens generalizing i with
  | nil => cases i <;> rfl
  | cons token later ih =>
    cases i with
    | zero => rfl
    | succ i => rw [← List.drop_tail, tail_labelled, ih, List.drop_succ_cons]

theorem getElem?_labelled (here : tokens[i]? = some token) :
    ∃ label, (t.labelled tokens)[i]? = some (token, label) ∧ t.Resolves tokens i label := by
  obtain ⟨inside, rfl⟩ := List.getElem?_eq_some_iff.1 here
  obtain ⟨label, labels, resolves⟩ := exists_labelled_resolves (List.drop_eq_getElem_cons inside)
  refine ⟨label, ?_, resolves⟩
  rw [← List.head?_drop, drop_labelled, List.drop_eq_getElem_cons inside, labels, List.head?_cons]

theorem getElem?_labels_iff (t : Tables) (tokens : List Token) (i : Nat) (label : String) :
    ((t.labelled tokens).map Prod.snd)[i]? = some label ↔ t.Resolves tokens i label := by
  constructor
  · intro given
    rw [List.getElem?_map, Option.map_eq_some_iff] at given
    obtain ⟨⟨token, _⟩, found, rfl⟩ := given
    have here : tokens[i]? = some token := by
      rw [← t.map_fst_labelled tokens, List.getElem?_map, found, Option.map_some]
    obtain ⟨other, also, resolves⟩ := getElem?_labelled here
    obtain rfl := congrArg Prod.snd (Option.some.inj (found.symm.trans also))
    exact resolves
  · intro resolves
    obtain ⟨token, here⟩ := resolves.exists_token
    obtain ⟨other, found, also⟩ := getElem?_labelled here
    rw [List.getElem?_map, found, resolves.unique also]
    rfl

@[simp] theorem length_labelled (t : Tables) (tokens : List Token) :
    (t.labelled tokens).length = tokens.length := by
  rw [← List.length_map (f := Prod.fst), map_fst_labelled]

theorem take_labelled (found : tokens[k]? = some next) (apart : next.joined = false) :
    (t.labelled tokens).take k = t.labelled (tokens.take k) := by
  have alone : ∀ first ∈ (tokens.drop k).head?, first.joined = false := by
    intro first head
    rw [List.head?_drop, found] at head
    cases head
    exact apart
  have before : (t.labelled (tokens.take k)).length = k := by
    rw [length_labelled, List.length_take, Nat.min_eq_left]
    exact Nat.le_of_lt (List.getElem?_eq_some_iff.1 found).1
  calc (t.labelled tokens).take k = (t.labelled (tokens.take k ++ tokens.drop k)).take k := by
        rw [List.take_append_drop]
    _ = (t.labelled (tokens.take k) ++ t.labelled (tokens.drop k)).take k := by
        rw [labelled_append alone]
    _ = t.labelled (tokens.take k) := List.take_left' before

theorem zipWith_labels {α : Type} (t : Tables) (tokens : List Token) (paint : Token → String → α) :
    List.zipWith paint tokens ((t.labelled tokens).map Prod.snd) =
      (t.labelled tokens).map fun p => paint p.1 p.2 :=
  calc List.zipWith paint tokens ((t.labelled tokens).map Prod.snd)
    _ = List.zipWith paint ((t.labelled tokens).map Prod.fst)
          ((t.labelled tokens).map Prod.snd) := by
        rw [map_fst_labelled]
    _ = (t.labelled tokens).map fun p => paint p.1 p.2 := by
        rw [List.zipWith_map, List.zipWith_self]

/-- The painter is given what each token resolves to, through whole chains of joined tokens. A token
with a label keeps it; and no label comes from behind a token that is not joined, since the tokens
before that one have the labels that they have alone. -/
theorem classify_resolves (t : Tables) (codes : Array Nat) :
    let tokens := t.tokenize codes.toList
    let labels := (t.labelled tokens).map Prod.snd
    labels.length = tokens.length ∧
      (∀ painter, t.classify painter codes =
        coalesce (List.zipWith
          (fun token label => ⟨token.start, token.stop, painter codes token label⟩)
          tokens labels)) ∧
      (∀ i label, labels[i]? = some label ↔ t.Resolves tokens i label) ∧
      (∀ (i : Nat) (token : Token), tokens[i]? = some token → t.label token.state ≠ "" →
        labels[i]? = some (t.label token.state)) ∧
      ∀ (k : Nat) (next : Token), tokens[k]? = some next → next.joined = false →
        labels.take k = (t.labelled (tokens.take k)).map Prod.snd := by
  intro tokens labels
  refine ⟨?_, fun painter => ?_, t.getElem?_labels_iff tokens, fun i token here labelled => ?_,
    fun k next found apart => ?_⟩
  · rw [List.length_map, length_labelled]
  · rw [zipWith_labels]
    rfl
  · exact (t.getElem?_labels_iff tokens i _).2 (.own here labelled)
  · rw [← List.map_take, take_labelled found apart]

/-- A comment that opens with `<!-`. Only the state that the whole opener leads to has a label. -/
def openers : Tables :=
  let layout : Layout :=
    { name := "openers"
      numStates := 4
      numClasses := 4
      classes := Layout.classMap
        (List.replicate 33 0 ++ [1] ++ List.replicate 11 0 ++ [2] ++ List.replicate 14 0 ++ [3])
      accept := #[false, false, false, false]
      labels := #["", "", "", "comment"]
      transitions := #[0, 0, 0, 1, 0, 2, 0, 0, 0, 0, 3, 0, 0, 0, 0, 0]
      numStates_lt := by decide
      numClasses_lt := by decide }
  ⟨layout, layout.fault?_eq_none_iff.1 (by decide +kernel)⟩

/-- The `<` borrows through the `!` from the `-`; where no `-` follows, there is nobody to borrow
from. -/
theorem classify_resolves_openers :
    let codes : Array Nat := #[60, 33, 45, 60, 33]
    let tokens := openers.tokenize codes.toList
    let labels := (openers.labelled tokens).map Prod.snd
    tokens[0]? = some ⟨0, 1, 1, false⟩ ∧ IsLeast (openers.lenders tokens 0) 2 ∧
      labels[0]? = some "comment" ∧
      tokens[2]? = some ⟨2, 3, 3, true⟩ ∧ labels[2]? = some "comment" ∧
      tokens[3]? = some ⟨3, 4, 1, false⟩ ∧ openers.lenders tokens 3 = ∅ ∧ labels[3]? = some "" ∧
        labels.take 3 = (openers.labelled (tokens.take 3)).map Prod.snd := by
  intro codes tokens labels
  have scanned : tokens =
      [⟨0, 1, 1, false⟩, ⟨1, 2, 2, true⟩, ⟨2, 3, 3, true⟩, ⟨3, 4, 1, false⟩, ⟨4, 5, 2, true⟩] := by
    decide +kernel
  have first : tokens[0]? = some ⟨0, 1, 1, false⟩ := by rw [scanned]; rfl
  have second : tokens[1]? = some ⟨1, 2, 2, true⟩ := by rw [scanned]; rfl
  have third : tokens[2]? = some ⟨2, 3, 3, true⟩ := by rw [scanned]; rfl
  have fourth : tokens[3]? = some ⟨3, 4, 1, false⟩ := by rw [scanned]; rfl
  have fifth : tokens[4]? = some ⟨4, 5, 2, true⟩ := by rw [scanned]; rfl
  have beyond : tokens[5]? = none := by rw [scanned]; rfl
  have nearest : IsLeast (openers.lenders tokens 0) 2 := by
    rw [lenders_succ second rfl rfl]
    exact isLeast_lenders third rfl (by decide)
  have nobody : openers.lenders tokens 3 = ∅ := by
    rw [lenders_succ fifth rfl rfl]
    exact lenders_eq_empty fun next found => nomatch beyond.symm.trans found
  obtain ⟨-, -, resolves, owned, apart⟩ := classify_resolves openers codes
  exact ⟨first, nearest, (resolves 0 _).2 (.borrowed first rfl nearest third), third,
    owned 2 _ third (by decide), fourth, nobody, (resolves 3 _).2 (.none fourth rfl nobody),
    apart 3 _ fourth rfl⟩

end SyntaxPaint.Tables

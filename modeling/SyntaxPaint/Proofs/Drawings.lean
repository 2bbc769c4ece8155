import SyntaxPaint.Specimen

/-!
What random choices yield, whatever the source answers within its bounds. A drawing yields a
property if it has a result from every state of its source and the result always has the property,
so that no look-up fails. Each rule below is for one way of making a choice.
-/

namespace SyntaxPaint.Random

namespace Drawing

variable {σ α β : Type} {d : Drawing σ α} {next : α → Drawing σ β} {p : α → Prop} {q : β → Prop}

theorem bind_eq_some_iff {s : σ} {r : β × σ} :
    (d >>= next) s = some r ↔ ∃ a s', d s = some (a, s') ∧ next a s' = some r := by
  show (d s).bind (fun made => next made.1 made.2) = some r ↔ _
  rw [Option.bind_eq_some_iff, Prod.exists]

/-- From every state of its source a drawing has a result, which satisfies `p`. -/
def Yields (d : Drawing σ α) (p : α → Prop) : Prop :=
  ∀ s, ∃ a s', d s = some (a, s') ∧ p a

theorem yields_pure {a : α} (holds : p a) : Yields (pure a : Drawing σ α) p :=
  fun s => ⟨a, s, rfl, holds⟩

theorem Yields.mono {r : α → Prop} (yields : Yields d p) (weaker : ∀ a, p a → r a) :
    Yields d r := by
  intro s
  obtain ⟨a, s', drawn, holds⟩ := yields s
  exact ⟨a, s', drawn, weaker a holds⟩

theorem Yields.bind (first : Yields d p) (second : ∀ a, p a → Yields (next a) q) :
    Yields (d >>= next) q := by
  intro s
  obtain ⟨a, s', drawn, holds⟩ := first s
  obtain ⟨b, s'', made, result⟩ := second a holds s'
  exact ⟨b, s'', bind_eq_some_iff.2 ⟨a, s', drawn, made⟩, result⟩

theorem Yields.map (yields : Yields d p) {f : α → β} (maps : ∀ a, p a → q (f a)) :
    Yields (d >>= fun a => pure (f a)) q :=
  yields.bind fun a holds => yields_pure (maps a holds)

end Drawing

open Drawing

variable {σ α : Type} [Source σ]

theorem yields_chance (odds : Odds) : Yields (chance odds : Drawing σ Bool) fun _ => True :=
  fun s => ⟨(Source.chance odds s).1, (Source.chance odds s).2, rfl, trivial⟩

theorem yields_ite_chance {odds : Odds} {d e : Drawing σ α} {p : α → Prop} (yes : Yields d p)
    (no : Yields e p) : Yields (do if ← chance odds then d else e) p := by
  refine (yields_chance odds).bind fun b _ => ?_
  cases b with
  | false => exact no
  | true => exact yes

variable [LawfulSource σ]

theorem yields_below {bound : Nat} (positive : 0 < bound) :
    Yields (below bound : Drawing σ Nat) (· < bound) :=
  fun s => ⟨_, _, rfl, LawfulSource.below_lt bound s positive⟩

theorem yields_between {least most : Nat} (ordered : least ≤ most) :
    Yields (between least most : Drawing σ Nat) fun n => least ≤ n ∧ n ≤ most :=
  (yields_below (Nat.succ_pos (most - least))).map fun n inside => by omega

theorem yields_pick {items : List α} (nonempty : items ≠ []) :
    Yields (pick items : Drawing σ α) (· ∈ items) := by
  refine (yields_below (List.length_pos_iff.2 nonempty)).bind fun index inside s => ?_
  exact ⟨items[index], s, by simp [inside], List.getElem_mem inside⟩

end SyntaxPaint.Random

namespace SyntaxPaint.Specimen

open SyntaxPaint.Random SyntaxPaint.Random.Drawing

variable {σ : Type} {p : List Char → Prop}

theorem yields_times {piece : Drawing σ (List Char)} (each : Yields piece p) (count : Nat) :
    Yields (times count piece) fun text =>
      ∃ pieces : List (List Char), pieces.length = count ∧ (∀ made ∈ pieces, p made) ∧
        text = pieces.flatten := by
  induction count with
  | zero => exact yields_pure ⟨[], rfl, by simp, rfl⟩
  | succ count ih =>
    refine each.bind fun first holds => ih.map ?_
    rintro rest ⟨pieces, size, all, rfl⟩
    exact ⟨first :: pieces, by simp [size], by simpa [holds] using all, by simp⟩

variable [Source σ] [LawfulSource σ]

theorem yields_oneOf {chars : String} (nonempty : chars.toList ≠ []) :
    Yields (oneOf chars : Drawing σ (List Char)) fun text => ∃ c ∈ chars.toList, text = [c] :=
  (yields_pick nonempty).map fun c among => ⟨c, among, rfl⟩

end SyntaxPaint.Specimen

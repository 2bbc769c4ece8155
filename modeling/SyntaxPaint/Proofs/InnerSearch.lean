import SyntaxPaint.Proofs.Course

/-!
A search that makes an opening, and a search of its own from the place of that opening. As long as
the opening waits, the first search does what the second one does, above the openings it had before;
so both find the same partner for it, or the same mismatch. Cells under the normal tag belong to
searches of every context and are left out.
-/

namespace SyntaxPaint.Bracket

open Text (Cell Passage comparable normalTag)

namespace Stack

variable {caret other : Nat} {stack below next rest : Stack} {top : Opening} {m : Mark}

theorem pass_append (nonempty : stack ≠ []) (short : (stack ++ below).length ≤ maxNesting)
    (passed : pass .forward caret (stack ++ below) m = .ok next) :
    next = below ∨
      ∃ kept, next = kept ++ below ∧ kept.getLast? = stack.getLast? ∧
        stack.pass .forward other m = .ok kept := by
  obtain ⟨top, rest, rfl⟩ := List.exists_cons_of_ne_nil nonempty
  rcases pass_eq_ok passed with
    ⟨quoted, rfl⟩ | ⟨outside, closing, -, _, waits, same⟩ | ⟨outside, opening, -, more, rfl⟩
  · exact .inr ⟨top :: rest, rfl, rfl, pass_of_quoted quoted⟩
  · obtain ⟨rfl, rfl⟩ := List.cons.inj same
    cases rest with
    | nil => exact .inl rfl
    | cons inner rest =>
      refine .inr ⟨inner :: rest, rfl, (List.getLast?_cons_cons ..).symm, ?_⟩
      exact pass_of_closes outside closing waits
  · have deeper : (top :: rest).length ≠ maxNesting := by
      rw [List.length_append] at short more
      omega
    refine .inr ⟨m.opening :: top :: rest, rfl, List.getLast?_cons_cons .., ?_⟩
    exact pass_of_opens outside opening (absurd · nonempty) deeper

theorem pass_singleton_of_closed
    (closed : pass .forward caret (top :: rest) m = .ok rest ∨
      pass .forward caret (top :: rest) m = .error (.matched m.offset)) :
    pass .forward other [top] m = .error (.matched m.offset) := by
  apply pass_eq_matched.2
  rcases closed with passed | matched
  · rcases pass_eq_ok passed with
      ⟨-, same⟩ | ⟨outside, closing, -, _, waits, same⟩ | ⟨-, -, -, -, same⟩
    · exact absurd same.symm (List.cons_ne_self _ _)
    · obtain ⟨rfl, -⟩ := List.cons.inj same
      exact ⟨outside, closing, rfl, top, waits, rfl⟩
    · exact absurd (congrArg List.length same) (by simp only [List.length_cons]; omega)
  · obtain ⟨outside, closing, -, _, waits, same⟩ := pass_eq_matched.1 matched
    obtain ⟨rfl, -⟩ := List.cons.inj same
    exact ⟨outside, closing, rfl, top, waits, rfl⟩

theorem pass_singleton_of_mismatched {opening : Nat}
    (ended : pass .forward caret (top :: rest) m = .error (.mismatched m.offset opening)) :
    pass .forward other [top] m = .error (.mismatched m.offset opening) := by
  obtain ⟨outside, closing, -, _, _, waits, here, same⟩ := pass_eq_mismatched.1 ended
  obtain ⟨rfl, -⟩ := List.cons.inj same
  exact pass_eq_mismatched.2 ⟨outside, closing, rfl, top, [], waits, here, rfl⟩

theorem Ascends.eq_singleton {offset : Nat} {kept : Stack} {o : Opening}
    (ascends : Ascends offset (kept ++ below)) (last : kept.getLast? = some o)
    (front : kept ++ below = top :: rest) (here : top.offset = o.offset) :
    kept = [top] := by
  cases kept with
  | nil => cases last
  | cons first kept =>
    obtain ⟨rfl, -⟩ := List.cons.inj front
    cases kept with
    | nil => rfl
    | cons second kept =>
      have member : o ∈ second :: kept ++ below := by
        rw [List.getLast?_cons_cons] at last
        exact List.mem_append_left _ (List.mem_of_getLast? last)
      exact absurd here (Nat.ne_of_gt ((List.pairwise_cons.1 ascends.pairwise).1 o member))

end Stack

namespace Forward

variable {table : Table} {p : Passage} {caret offset place stop : Nat} {s t next : State} {c : Cell}

def Opens (table : Table) (p : Passage) (caret place : Nat) (next : State) : Prop :=
  ∃ s c o, Leads table p caret caret start place s ∧ p[place]? = some c ∧
    step table caret place s c = .ok next ∧ next.stack = o :: s.stack

/-- The search comes to `stop`, where the opening made at `place` is the innermost and is closed. -/
def Closes (table : Table) (p : Passage) (caret place : Nat) (next : State) (stop : Nat) : Prop :=
  ∃ t c top rest, Leads table p caret (place + 1) next stop t ∧ p[stop]? = some c ∧
    t.stack = top :: rest ∧ top.offset = place ∧
      ((∃ after, step table caret stop t c = .ok after ∧ after.stack = rest) ∨
        step table caret stop t c = .error (.matched stop))

/-- The search comes to `stop`, where it ends as something else closes than the opening made at
`place` waits for. -/
def Fails (table : Table) (p : Passage) (caret place : Nat) (next : State) (stop : Nat) : Prop :=
  ∃ t c, Leads table p caret (place + 1) next stop t ∧ p[stop]? = some c ∧
    step table caret stop t c = .error (.mismatched stop place)

theorem Leads.context_ne (foreign : ∀ c ∈ p, c.tag ≠ normalTag)
    (leads : Leads table p caret offset s place t) (begins : ∀ tag ∈ s.context, tag ≠ normalTag) :
    ∀ tag ∈ t.context, tag ≠ normalTag := by
  induction leads with
  | refl => exact begins
  | @step place t next c _ here passed ih =>
    have getD_ne : t.context.getD c.tag ≠ normalTag := by
      cases context : t.context with
      | none => exact foreign c (List.mem_of_getElem? here)
      | some tag => exact ih tag context
    rcases (step_eq_ok passed).1 with same | same
    · rwa [same]
    · rw [same]
      rintro tag ⟨⟩
      exact getD_ne

theorem eq_of_comparable {a b : String} (near : comparable a b = true) (left : a ≠ normalTag)
    (right : b ≠ normalTag) : a = b := by
  simpa [comparable, left, right] using near

theorem Opens.leads (foreign : ∀ c ∈ p, c.tag ≠ normalTag)
    (opened : Opens table p caret place next) :
    ∃ m : Mark, ∃ below, m.offset = place ∧ next.stack = m.opening :: below ∧
      next.stack.Ascends (place + 1) ∧
        Leads table p place place start (place + 1) ⟨next.context, next.escaped, [m.opening]⟩ := by
  obtain ⟨s, c, o, leads, here, passed, grown⟩ := opened
  have ascends := (leads.step here passed).ascends Stack.Ascends.nil
  have unmixed := leads.context_ne foreign (fun tag none => by cases none)
  obtain ⟨context, escaped, stack⟩ := s
  rcases step_cases table place context escaped c with
    ⟨tag, flag, -, same⟩ | ⟨m, rfl, code, listed, near, rfl⟩
  · rw [same] at passed
    cases passed
    exact absurd grown (List.cons_ne_self _ _).symm
  · rw [step_of_bracket listed code near, map_eq_ok_iff] at passed
    obtain ⟨opened, met, rfl⟩ := passed
    rcases Stack.pass_eq_ok met with ⟨-, same⟩ | ⟨-, -, -, top, -, same⟩ | ⟨-, opening, -, -, rfl⟩
    · exact absurd (same.symm.trans grown) (List.cons_ne_self _ _).symm
    · rw [same] at grown
      exact absurd (congrArg List.length grown) (by simp only [List.length_cons]; omega)
    · refine ⟨m, stack, rfl, rfl, ascends, ?_⟩
      -- The search from here takes this tag for its context, so it has to be the context already.
      have tag : context.getD c.tag = c.tag := by
        cases context with
        | none => rfl
        | some tag =>
          have known := foreign c (List.mem_of_getElem? here)
          exact (eq_of_comparable near known (unmixed tag rfl)).symm
      refine Leads.refl.step here ?_
      have alone : Stack.pass .forward m.offset [] m = .ok [m.opening] :=
        Stack.pass_of_opens rfl (Stack.closes_nil_of_opens (Stack.opens_of_closes_eq_false opening))
          (fun _ => beq_self_eq_true _) (by decide)
      rw [start, step_of_bracket listed code (by simp), alone, tag]
      rfl

/-- As long as the opening at `place` waits, the search that made it is, above the openings it had
before, in the state of the search from that place. -/
theorem Leads.inner {below : Stack} {m : Mark} (leads : Leads table p caret (place + 1) next stop t)
    (opened : next.stack = m.opening :: below) (here : m.offset = place)
    (ascends : next.stack.Ascends (place + 1))
    (begins : Leads table p place place start (place + 1)
      ⟨next.context, next.escaped, [m.opening]⟩) :
    (∃ kept, t.stack = kept ++ below ∧ kept.getLast? = some m.opening ∧
        Leads table p place place start stop ⟨t.context, t.escaped, kept⟩) ∨
      ∀ o ∈ t.stack, o.offset ≠ place := by
  have before : ∀ o ∈ below, o.offset ≠ place := by
    rw [opened] at ascends
    intro o member
    exact Nat.ne_of_lt (here ▸ (List.pairwise_cons.1 ascends.pairwise).1 o member)
  induction leads with
  | refl => exact .inl ⟨[m.opening], opened, rfl, begins⟩
  | @step offset t after c leads found passed ih =>
    obtain ⟨-, ⟨same, alike⟩ | ⟨n, rfl, met, alike⟩⟩ := step_eq_ok passed
    · rw [same]
      rcases ih with ⟨kept, split, last, inner⟩ | gone
      · exact .inl ⟨kept, split, last, inner.step found (alike place kept)⟩
      · exact .inr gone
    · rcases ih with ⟨kept, split, last, inner⟩ | gone
      · have nonempty : kept ≠ [] := by
          rintro rfl
          cases last
        have short : (kept ++ below).length ≤ maxNesting :=
          split ▸ (leads.ascends ascends).length_le
        rw [split] at met
        -- Either the bracket closes the opening at `place`, or both searches pass it in the same
        -- way.
        rcases Stack.pass_append nonempty short met with closed | ⟨kept', grown, same, within⟩
        · rw [closed]
          exact .inr before
        · refine .inl ⟨kept', grown, same.trans last, inner.step found ?_⟩
          rw [alike, within]
          rfl
      · refine .inr fun o member => ?_
        rcases Stack.mem_of_pass met member with old | new
        · exact gone o old
        · rw [new]
          exact Nat.ne_of_gt leads.le

theorem Opens.leads_innermost (foreign : ∀ c ∈ p, c.tag ≠ normalTag)
    (opened : Opens table p caret place next) (leads : Leads table p caret (place + 1) next stop t)
    {top : Opening} {rest : Stack} (front : t.stack = top :: rest) (here : top.offset = place) :
    Leads table p place place start stop ⟨t.context, t.escaped, [top]⟩ := by
  obtain ⟨m, below, rfl, grown, ascends, begins⟩ := opened.leads foreign
  rcases leads.inner grown rfl ascends begins with ⟨kept, split, last, inner⟩ | gone
  · have sorted := leads.ascends ascends
    rw [split] at sorted
    rwa [sorted.eq_singleton last (split.symm.trans front) here] at inner
  · exact absurd here (gone top (front ▸ List.mem_cons_self))

theorem Opens.forwardOutcome_of_closes (foreign : ∀ c ∈ p, c.tag ≠ normalTag)
    (opened : Opens table p caret place next) (closes : Closes table p caret place next stop) :
    forwardOutcome table p place = .matched stop := by
  obtain ⟨t, c, top, rest, leads, found, front, here, closed⟩ := closes
  refine (opened.leads_innermost foreign leads front here).forwardOutcome_eq found ?_
  rcases closed with ⟨after, passed, popped⟩ | ended
  · obtain ⟨-, ⟨same, -⟩ | ⟨m, rfl, met, alike⟩⟩ := step_eq_ok passed
    · exact absurd (front.symm.trans (same.symm.trans popped)) (List.cons_ne_self _ _)
    · rw [front, popped] at met
      rw [alike, Stack.pass_singleton_of_closed (.inl met)]
      rfl
  · obtain ⟨m, context, rfl, met, alike⟩ := step_eq_error ended
    rw [front] at met
    rw [alike, Stack.pass_singleton_of_closed (.inr met)]
    rfl

theorem Opens.forwardOutcome_of_fails (foreign : ∀ c ∈ p, c.tag ≠ normalTag)
    (opened : Opens table p caret place next) (fails : Fails table p caret place next stop) :
    forwardOutcome table p place = .mismatched stop place := by
  obtain ⟨t, c, leads, found, ended⟩ := fails
  obtain ⟨m, context, rfl, met, alike⟩ := step_eq_error ended
  obtain ⟨-, -, -, top, rest, -, here, front⟩ := Stack.pass_eq_mismatched.1 met
  refine (opened.leads_innermost foreign leads front here).forwardOutcome_eq found ?_
  rw [front] at met
  rw [alike, Stack.pass_singleton_of_mismatched met]
  rfl

theorem Opens.forwardOutcome_eq_of_fails (opened : Opens table p caret place next)
    (fails : Fails table p caret place next stop) :
    forwardOutcome table p caret = .mismatched stop place := by
  obtain ⟨s, c, o, before, here, passed, -⟩ := opened
  obtain ⟨t, c, leads, found, ended⟩ := fails
  exact ((before.step here passed).trans leads).forwardOutcome_eq found ended

theorem Opens.lt_length (opened : Opens table p caret place next) : place < p.length := by
  obtain ⟨_, _, _, -, here, -, -⟩ := opened
  exact (List.getElem?_eq_some_iff.1 here).1

end Forward

/-- Whatever comes of a search to the right, an opening that it makes is matched by a search of its
own where that one closes it; and where it fails at an opening, the caret comes to that opening and
stays there. -/
theorem forward_of_opens (table : Table) (p : Passage) (foreign : ∀ c ∈ p, c.tag ≠ normalTag)
    (start : Nat) {place : Nat} {next : Forward.State}
    (opened : Forward.Opens table p (min start p.length) place next) :
    (∀ stop, Forward.Closes table p (min start p.length) place next stop →
      forward table p place = stop + 1) ∧
      ∀ stop, Forward.Fails table p (min start p.length) place next stop →
        forward table p start = place ∧ forward table p place = place := by
  have inside : min place p.length = place := Nat.min_eq_left (Nat.le_of_lt opened.lt_length)
  constructor
  · intro stop closes
    rw [forward, inside, opened.forwardOutcome_of_closes foreign closes]
    rfl
  · intro stop fails
    constructor
    · rw [forward, opened.forwardOutcome_eq_of_fails fails]
      rfl
    · rw [forward, inside, opened.forwardOutcome_of_fails foreign fails]
      rfl

theorem forward_of_opens_mismatch :
    let p := Passage.ofString "([']']\x7b)"
    let square : Forward.State := ⟨some "", false, [⟨1, 93, false⟩, ⟨0, 41, false⟩]⟩
    let curly : Forward.State := ⟨some "", false, [⟨6, 125, false⟩, ⟨0, 41, false⟩]⟩
    (∀ c ∈ p, c.tag ≠ normalTag) ∧
      Forward.Opens .standard p 0 1 square ∧ Forward.Closes .standard p 0 1 square 5 ∧
        forward .standard p 1 = 6 ∧
      Forward.Opens .standard p 0 6 curly ∧ Forward.Fails .standard p 0 6 curly 7 ∧
        forward .standard p 0 = 6 ∧ forward .standard p 6 = 6 := by
  intro p square curly
  have foreign : ∀ c ∈ p, c.tag ≠ normalTag := by decide
  have first : Forward.Leads .standard p 0 0 Forward.start 1 ⟨some "", false, [⟨0, 41, false⟩]⟩ :=
    .step .refl rfl rfl
  have opens : Forward.Opens .standard p 0 1 square := ⟨_, _, _, first, rfl, rfl, rfl⟩
  have quoted : Forward.Leads .standard p 0 2 square 5 square :=
    .step (.step (.step .refl rfl rfl) rfl rfl) rfl rfl
  have closes : Forward.Closes .standard p 0 1 square 5 :=
    ⟨_, _, _, _, quoted, rfl, rfl, rfl, .inl ⟨_, rfl, rfl⟩⟩
  have opensLater : Forward.Opens .standard p 0 6 curly :=
    ⟨_, _, _, .step (((first.step rfl rfl).trans quoted)) rfl rfl, rfl, rfl, rfl⟩
  have fails : Forward.Fails .standard p 0 6 curly 7 := ⟨_, _, .refl, rfl, rfl⟩
  obtain ⟨comes, stays⟩ := (forward_of_opens .standard p foreign 0 opensLater).2 7 fails
  exact ⟨foreign, opens, closes, (forward_of_opens .standard p foreign 0 opens).1 5 closes,
    opensLater, fails, comes, stays⟩

end SyntaxPaint.Bracket

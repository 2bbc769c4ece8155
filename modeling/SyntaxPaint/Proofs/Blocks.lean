import SyntaxPaint.Json.Form
import SyntaxPaint.Proofs.SpelledValues

/-!
Values that are written over several lines, between brackets: arrays, whose lines are their items,
and objects, whose lines are their members. What a reader makes of one line is a lemma of its own;
the lines of a block are then read one after the other.
-/

namespace SyntaxPaint.Json

open Printer (indent)

def linesAfter (depth : Nat) (lines : List (List Char)) : List Char :=
  lines.flatMap fun line => ',' :: '\n' :: (indent (depth + 1) ++ line)

theorem linesAfter_cons (depth : Nat) (line : List Char) (lines : List (List Char))
    (more : List Char) :
    linesAfter depth (line :: lines) ++ more =
      (',' :: ('\n' :: indent (depth + 1) ++ line)) ++ (linesAfter depth lines ++ more) := by
  simp [linesAfter]

theorem block_cons (opening closing : Char) (depth : Nat) (line : List Char)
    (lines : List (List Char)) (more : List Char) :
    Printer.block opening closing depth (line :: lines) ++ more =
      opening :: (('\n' :: indent (depth + 1) ++ line) ++
        (linesAfter depth lines ++ ('\n' :: indent depth ++ closing :: more))) := by
  simp [Printer.block, linesAfter]

theorem blank_newline (depth : Nat) : ∀ b ∈ '\n' :: indent depth, Blank b := by
  simp [indent, Blank]

theorem ends_linesAfter (depth : Nat) (lines : List (List Char)) (closing : Char)
    (more : List Char) :
    Ends (linesAfter depth lines ++ ('\n' :: indent depth ++ closing :: more)) := by
  cases lines with
  | nil => exact ⟨'\n', _, rfl, .inr rfl⟩
  | cons line lines => exact ⟨',', _, linesAfter_cons depth line lines _, .inl rfl⟩

namespace Reader

variable {α : Type}

theorem takes_seen_array {blanks : List Char} (blank : ∀ b ∈ blanks, Blank b) (rest : List Char) :
    seen.Takes (blanks ++ '[' :: rest) .array ('[' :: rest) :=
  (takes_token_after blank (by decide) rest).bind (takes_pure _ _)

theorem takes_seen_object {blanks : List Char} (blank : ∀ b ∈ blanks, Blank b) (rest : List Char) :
    seen.Takes (blanks ++ '{' :: rest) .object ('{' :: rest) :=
  (takes_token_after blank (by decide) rest).bind (takes_pure _ _)

theorem takes_openArray (wanted : Wanted) {blanks : List Char} (blank : ∀ b ∈ blanks, Blank b)
    (rest : List Char) : (openArray wanted).Takes (blanks ++ '[' :: rest) () rest :=
  (takes_seen_array blank rest).bind (takes_skip (by decide) rest)

theorem takes_closeArray {blanks : List Char} (blank : ∀ b ∈ blanks, Blank b) (rest : List Char) :
    closeArray.Takes (blanks ++ ']' :: rest) () rest :=
  (takes_token_after blank (by decide) rest).bind (takes_skip (by decide) rest)

theorem takes_anotherItem_first {blanks : List Char} (blank : ∀ b ∈ blanks, Blank b) {c : Char}
    (printable : Printable c) (other : c ≠ ']') (rest : List Char) :
    (anotherItem true).Takes (blanks ++ c :: rest) true (c :: rest) := by
  refine (takes_token_after blank printable rest).bind ?_
  split
  · contradiction
  · next same =>
    cases same
    contradiction
  · exact takes_pure true _

theorem takes_anotherItem_next {blanks : List Char} (blank : ∀ b ∈ blanks, Blank b) {c : Char}
    (printable : Printable c) (other : c ≠ ']') (rest : List Char) :
    (anotherItem false).Takes (',' :: (blanks ++ c :: rest)) true (c :: rest) := by
  refine (takes_token (by decide) _).bind ?_
  refine (takes_skip (by decide) _).bind ?_
  refine (takes_token_after blank printable rest).bind ?_
  split
  · contradiction
  · next same =>
    cases same
    contradiction
  · exact takes_pure true _

theorem takes_anotherItem_end (first : Bool) {blanks : List Char} (blank : ∀ b ∈ blanks, Blank b)
    (rest : List Char) : (anotherItem first).Takes (blanks ++ ']' :: rest) false (']' :: rest) :=
  (takes_token_after blank (by decide) rest).bind (takes_pure false _)

variable {item : Reader α} {line : List Char} {a : α}

theorem Spells.after_first (spells : item.Spells line a) {β : Type} {next : Bool → Reader β} {b : β}
    (depth : Nat) {more rest : List Char} (goes : Takes (next true) (line ++ more) b rest) :
    Takes (anotherItem true >>= next) ('\n' :: indent depth ++ line ++ more) b rest := by
  obtain ⟨c, others, rfl, printable, other⟩ := spells.begins
  rw [List.append_assoc]
  exact (takes_anotherItem_first (blank_newline depth) printable other _).bind goes

theorem Spells.after_comma (spells : item.Spells line a) {β : Type} {next : Bool → Reader β} {b : β}
    (depth : Nat) {more rest : List Char} (goes : Takes (next true) (line ++ more) b rest) :
    Takes (anotherItem false >>= next) (',' :: ('\n' :: indent depth ++ line) ++ more) b rest := by
  obtain ⟨c, others, rfl, printable, other⟩ := spells.begins
  rw [List.cons_append, List.append_assoc]
  exact (takes_anotherItem_next (blank_newline depth) printable other _).bind goes

theorem Spells.takes (spells : item.Spells line a) {more : List Char} (ends : Ends more) :
    item.Takes (line ++ more) a more :=
  spells.whole [] blank_nil more ends

theorem takes_listItem_first (spells : item.Spells line a) (depth : Nat) {more : List Char}
    (ends : Ends more) :
    (listItem item []).Takes ('\n' :: indent depth ++ line ++ more) (.inl [a]) more :=
  spells.after_first depth ((spells.takes ends).bind (takes_pure _ more))

theorem takes_listItem_next (spells : item.Spells line a) (depth : Nat) {more : List Char}
    (ends : Ends more) (last : α) (before : List α) :
    (listItem item (last :: before)).Takes (',' :: ('\n' :: indent depth ++ line) ++ more)
      (.inl (a :: last :: before)) more :=
  spells.after_comma depth ((spells.takes ends).bind (takes_pure _ more))

theorem takes_listItem_end {blanks : List Char} (blank : ∀ b ∈ blanks, Blank b) (before : List α)
    (rest : List Char) :
    (listItem item before).Takes (blanks ++ ']' :: rest) (.inr before.reverse) (']' :: rest) :=
  (takes_anotherItem_end before.isEmpty blank rest).bind (takes_pure _ _)

variable {write : α → List Char} {values : List α}

theorem takes_listItems_after (each : ∀ a ∈ values, item.Spells (write a) a) (last : α)
    (before : List α) (depth : Nat) (rest : List Char) :
    (iterate (listItem item) (last :: before)).Takes
      (linesAfter depth (values.map write) ++ ('\n' :: indent depth ++ ']' :: rest))
      ((last :: before).reverse ++ values) (']' :: rest) := by
  induction values generalizing last before with
  | nil =>
    rw [List.append_nil]
    exact (takes_listItem_end (blank_newline depth) _ rest).iterate_last
  | cons a values ih =>
    obtain ⟨here, below⟩ := List.forall_mem_cons.1 each
    have later := ih below a (last :: before)
    rw [List.reverse_cons, List.append_assoc] at later
    have first :=
      takes_listItem_next here (depth + 1)
        (ends_linesAfter depth (values.map write) ']' rest) last before
    rw [List.map_cons, linesAfter_cons]
    exact first.iterate_next (List.cons_ne_nil _ _) later

theorem begins_array (depth : Nat) (lines : List (List Char)) :
    ∃ c rest, Printer.array depth lines = c :: rest ∧ Printable c ∧ c ≠ ']' := by
  cases lines <;> exact ⟨'[', _, rfl, by decide⟩

theorem spells_listOf (each : ∀ a ∈ values, item.Spells (write a) a) (depth : Nat) :
    (listOf item).Spells (Printer.array depth (values.map write)) values where
  begins := begins_array depth _
  whole blanks blank more _ := by
    cases values with
    | nil =>
      refine (takes_openArray .list blank _).bind ?_
      refine (takes_listItem_end blank_nil [] more).iterate_last.bind ?_
      exact (takes_closeArray blank_nil more).bind (takes_pure [] more)
    | cons a values =>
      obtain ⟨here, below⟩ := List.forall_mem_cons.1 each
      rw [List.map_cons, Printer.array, block_cons]
      refine (takes_openArray .list blank _).bind ?_
      have first :=
        takes_listItem_first here (depth + 1) (ends_linesAfter depth (values.map write) ']' more)
      refine (first.iterate_next (List.cons_ne_nil _ _)
        (takes_listItems_after below a [] depth more)).bind ?_
      exact (takes_closeArray blank_nil more).bind (takes_pure _ more)

theorem takes_countedItems_after (each : ∀ a ∈ values, item.Spells (write a) a) (count : Nat)
    (last : α) (before : List α) (depth : Nat) (rest : List Char) :
    (countedItems item count values.length (last :: before)).Takes
      (linesAfter depth (values.map write) ++ ('\n' :: indent depth ++ ']' :: rest))
      ((last :: before).reverse ++ values) ('\n' :: indent depth ++ ']' :: rest) := by
  induction values generalizing last before with
  | nil =>
    rw [List.append_nil]
    exact takes_pure _ _
  | cons a values ih =>
    obtain ⟨here, below⟩ := List.forall_mem_cons.1 each
    have later := ih below a (last :: before)
    rw [List.reverse_cons, List.append_assoc] at later
    have ends := ends_linesAfter depth (values.map write) ']' rest
    rw [List.map_cons, linesAfter_cons]
    exact here.after_comma (depth + 1) ((here.takes ends).bind later)

theorem spells_listOfLength (each : ∀ a ∈ values, item.Spells (write a) a) {count : Nat}
    (size : values.length = count) (some : values ≠ []) (depth : Nat) :
    (listOfLength count item).Spells (Printer.array depth (values.map write)) values where
  begins := begins_array depth _
  whole blanks blank more _ := by
    obtain ⟨a, others, rfl⟩ := List.exists_cons_of_ne_nil some
    obtain ⟨here, below⟩ := List.forall_mem_cons.1 each
    have ends := ends_linesAfter depth (others.map write) ']' more
    subst size
    rw [List.map_cons, Printer.array, block_cons]
    refine (takes_openArray _ blank _).bind ?_
    have later := takes_countedItems_after below (a :: others).length a [] depth more
    have items : (countedItems item (a :: others).length (a :: others).length []).Takes
        ('\n' :: indent (depth + 1) ++ write a ++
          (linesAfter depth (others.map write) ++ ('\n' :: indent depth ++ ']' :: more)))
        (a :: others) ('\n' :: indent depth ++ ']' :: more) :=
      here.after_first (depth + 1) ((here.takes ends).bind later)
    refine items.bind ?_
    exact (takes_closeArray (blank_newline depth) more).bind (takes_pure _ more)

end Reader

namespace Form

open Reader

variable {δ α : Type} {form : Form δ α}

/-- A member puts its value into a field that a draft has not got. -/
def Fills (form : Form δ α) (draft : δ) (member : String × List Char) (filled : δ) : Prop :=
  ∃ field, form.fields.find? (·.key = member.1) = some field ∧ field.held draft = false ∧
    (field.read draft).Spells member.2 filled

inductive Filled (form : Form δ α) : δ → List (String × List Char) → δ → Prop
  | nil (draft : δ) : Filled form draft [] draft
  | cons {draft middle filled : δ} {member : String × List Char}
      {members : List (String × List Char)}
      (first : form.Fills draft member middle) (others : Filled form middle members filled) :
      Filled form draft (member :: members) filled

def memberLine (member : String × List Char) : List Char :=
  spell member.1 ++ ':' :: ' ' :: member.2

theorem takes_anotherMember_first {blanks : List Char} (blank : ∀ b ∈ blanks, Blank b)
    (rest : List Char) :
    (anotherMember true).Takes (blanks ++ '"' :: rest) true ('"' :: rest) :=
  (takes_token_after blank (by decide) rest).bind (takes_pure true _)

theorem takes_anotherMember_next {blanks : List Char} (blank : ∀ b ∈ blanks, Blank b)
    (rest : List Char) :
    (anotherMember false).Takes (',' :: (blanks ++ '"' :: rest)) true ('"' :: rest) := by
  refine (takes_token (by decide) _).bind ?_
  refine (takes_skip (by decide) _).bind ?_
  exact (takes_token_after blank (by decide) rest).bind (takes_pure true _)

theorem takes_anotherMember_end (first : Bool) {blanks : List Char} (blank : ∀ b ∈ blanks, Blank b)
    (rest : List Char) : (anotherMember first).Takes (blanks ++ '}' :: rest) false ('}' :: rest) :=
  (takes_token_after blank (by decide) rest).bind (takes_pure false _)

theorem takes_memberOf {draft filled : δ} {member : String × List Char}
    (fills : form.Fills draft member filled) {more : List Char} (ends : Ends more) :
    (form.memberOf draft member.1).Takes (':' :: ' ' :: (member.2 ++ more)) filled more := by
  obtain ⟨field, found, free, spells⟩ := fills
  unfold memberOf
  simp only [found, free, Bool.false_eq_true, if_false]
  refine (takes_colon _).bind ?_
  exact spells.whole [' '] (by simp [Blank]) more ends

theorem memberLine_append (member : String × List Char) (more : List Char) :
    memberLine member ++ more =
      '"' :: (member.1.toList.flatMap spellChar ++ '"' :: ':' :: ' ' :: (member.2 ++ more)) := by
  simp [memberLine, spell]

theorem takes_memberLine {draft filled : δ} {member : String × List Char}
    (fills : form.Fills draft member filled) {more : List Char} (ends : Ends more) :
    Takes (do skip; return .inl (← form.memberOf draft (← text), false)) (memberLine member ++ more)
      (.inl (filled, false) : (δ × Bool) ⊕ δ) more := by
  rw [memberLine_append]
  refine (takes_skip (by decide) _).bind ?_
  refine (takes_text member.1 _).bind ?_
  exact (takes_memberOf fills ends).bind (takes_pure _ more)

theorem takes_member_first {draft filled : δ} {member : String × List Char}
    (fills : form.Fills draft member filled) (depth : Nat) {more : List Char} (ends : Ends more) :
    (form.member (draft, true)).Takes ('\n' :: indent depth ++ memberLine member ++ more)
      (.inl (filled, false)) more := by
  have line := takes_memberLine fills ends
  rw [memberLine_append] at line
  rw [List.append_assoc, memberLine_append]
  exact (takes_anotherMember_first (blank_newline depth) _).bind line

theorem takes_member_next {draft filled : δ} {member : String × List Char}
    (fills : form.Fills draft member filled) (depth : Nat) {more : List Char} (ends : Ends more) :
    (form.member (draft, false)).Takes (',' :: ('\n' :: indent depth ++ memberLine member) ++ more)
      (.inl (filled, false)) more := by
  have line := takes_memberLine fills ends
  rw [memberLine_append] at line
  rw [List.cons_append, List.append_assoc, memberLine_append]
  exact (takes_anotherMember_next (blank_newline depth) _).bind line

theorem takes_member_end (draft : δ) (first : Bool) {blanks : List Char}
    (blank : ∀ b ∈ blanks, Blank b) (rest : List Char) :
    (form.member (draft, first)).Takes (blanks ++ '}' :: rest) (.inr draft) ('}' :: rest) :=
  (takes_anotherMember_end first blank rest).bind (takes_pure _ _)

theorem takes_members_after {draft filled : δ} {members : List (String × List Char)}
    (fills : form.Filled draft members filled) (depth : Nat) (rest : List Char) :
    (iterate form.member (draft, false)).Takes
      (linesAfter depth (members.map memberLine) ++ ('\n' :: indent depth ++ '}' :: rest)) filled
      ('}' :: rest) := by
  induction fills with
  | nil draft => exact (takes_member_end draft false (blank_newline depth) rest).iterate_last
  | @cons _ _ _ member members first _ ih =>
    rw [List.map_cons, linesAfter_cons]
    have line :=
      takes_member_next first (depth + 1) (ends_linesAfter depth (members.map memberLine) '}' rest)
    exact line.iterate_next (List.cons_ne_nil _ _) ih

/-- A record is read back from an object with its fields, if these make a record. -/
theorem takes_read {members : List (String × List Char)} {filled : δ} {a : α}
    (fills : form.Filled form.start members filled) (made : form.finish filled = .ok a)
    (rest : List Char) :
    form.read.Takes (Printer.object 0 members ++ rest) a rest := by
  have written : Printer.object 0 members = Printer.block '{' '}' 0 (members.map memberLine) := rfl
  have ended : Takes (do skip; return a) ('}' :: rest) a rest :=
    (takes_skip (by decide) rest).bind (takes_pure a rest)
  rw [written]
  cases fills with
  | nil =>
    refine (takes_seen_object blank_nil _).bind ?_
    refine (takes_skip (by decide) _).bind ?_
    refine (takes_member_end form.start true blank_nil rest).iterate_last.bind ?_
    rw [made]
    exact ended
  | @cons _ _ _ member members first others =>
    rw [List.map_cons, block_cons]
    have line := takes_member_first first 1 (ends_linesAfter 0 (members.map memberLine) '}' rest)
    refine (takes_seen_object blank_nil _).bind ?_
    refine (takes_skip (by decide) _).bind ?_
    refine (line.iterate_next (List.cons_ne_nil _ _) (takes_members_after others 0 rest)).bind ?_
    rw [made]
    exact ended

end Form

end SyntaxPaint.Json

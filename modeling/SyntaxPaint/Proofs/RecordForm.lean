import SyntaxPaint.Proofs.BinaryForm
import SyntaxPaint.Proofs.Blocks
import SyntaxPaint.Tables.File

/-!
Tables in JSON form. Every field of the record is read back from what is printed for it, one after
the other; the draft that comes of it has the layout of the tables, which has been checked before.
The form has no limit of its own, so that it holds all tables, and says the same as the binary form
of those that fit there.
-/

namespace SyntaxPaint.Record

open Json (Word Form)
open Json.Printer (natural array)
open Json.Reader

def words (values : List Nat) (small : ∀ n ∈ values, n < 65536) : List Word :=
  values.attachWith (· < 65536) small

@[simp] theorem numbers_words {values : List Nat} (small : ∀ n ∈ values, n < 65536) :
    numbers (words values small) = values := by
  simp [numbers, words]

@[simp] theorem length_words {values : List Nat} (small : ∀ n ∈ values, n < 65536) :
    (words values small).length = values.length := by
  simp [words]

theorem map_natural_words {values : List Nat} (small : ∀ n ∈ values, n < 65536) :
    (words values small).map (fun n => natural n.val) = values.map natural := by
  have same := congrArg (List.map natural) (numbers_words small)
  rwa [numbers, List.map_map] at same

section Fields

variable (t : Tables)

theorem class_lt_word : ∀ c ∈ t.classes.toArray.toList, c < 65536 := fun c listed =>
  Nat.lt_trans (t.valid.class_lt c (Array.mem_toList_iff.1 listed)) t.numClasses_lt

theorem target_lt_word : ∀ s ∈ t.transitions.toList, s < 65536 := fun s listed =>
  Nat.lt_trans (t.valid.target_lt s (Array.mem_toList_iff.1 listed)) t.numStates_lt

def draft : Draft where
  name := some t.name
  numStates := some ⟨t.numStates, t.numStates_lt⟩
  numClasses := some ⟨t.numClasses, t.numClasses_lt⟩
  classes := some (words t.classes.toArray.toList (class_lt_word t))
  accept := some t.accept.toList
  labels := some t.labels.toList
  transitions := some (words t.transitions.toList (target_lt_word t))

theorem layout_draft : (draft t).layout = .ok t.toLayout := by
  simp [draft, Draft.layout, required, Binary.classMap_toList_classes, bind, Except.bind, pure,
    Except.pure]

theorem spells_classes :
    (listOfLength 256 asWord).Spells (array 1 (t.classes.toArray.toList.map natural))
      (words t.classes.toArray.toList (class_lt_word t)) := by
  rw [← map_natural_words (class_lt_word t)]
  have size : (words t.classes.toArray.toList (class_lt_word t)).length = 256 := by simp
  have some : words t.classes.toArray.toList (class_lt_word t) ≠ [] :=
    List.ne_nil_of_length_eq_add_one size
  exact spells_listOfLength (fun n _ => spells_asWord n) size some 1

theorem spells_transitions :
    (listOf asWord).Spells (array 1 (t.transitions.toList.map natural))
      (words t.transitions.toList (target_lt_word t)) := by
  rw [← map_natural_words (target_lt_word t)]
  exact spells_listOf (fun n _ => spells_asWord n) 1

def members : List (String × List Char) :=
  [("name", Json.spell t.name),
    ("numStates", natural t.numStates),
    ("numAlphabets", natural t.numClasses),
    ("alphabetOf", array 1 (t.classes.toArray.toList.map natural)),
    ("accept", array 1 (t.accept.toList.map Json.Printer.bool)),
    ("label", array 1 (t.labels.toList.map Json.spell)),
    ("transitions", array 1 (t.transitions.toList.map natural))]

theorem print_eq_object : print t = Json.Printer.object 0 (members t) := rfl

theorem filled_members : form.Filled Draft.empty (members t) (draft t) := by
  have texts := spells_listOf (fun s (_ : s ∈ t.labels.toList) => spells_asText s) 1
  have flags := spells_listOf (fun b (_ : b ∈ t.accept.toList) => spells_asBool b) 1
  refine .cons ⟨_, rfl, rfl, (spells_asText t.name).bind fun _ => takes_pure _ _⟩ ?_
  have states := spells_asWord ⟨t.numStates, t.numStates_lt⟩
  have classes := spells_asWord ⟨t.numClasses, t.numClasses_lt⟩
  refine .cons ⟨_, rfl, rfl, states.bind fun _ => takes_pure _ _⟩ ?_
  refine .cons ⟨_, rfl, rfl, classes.bind fun _ => takes_pure _ _⟩ ?_
  refine .cons ⟨_, rfl, rfl, (spells_classes t).bind fun _ => takes_pure _ _⟩ ?_
  refine .cons ⟨_, rfl, rfl, flags.bind fun _ => takes_pure _ _⟩ ?_
  refine .cons ⟨_, rfl, rfl, texts.bind fun _ => takes_pure _ _⟩ ?_
  refine .cons ⟨_, rfl, rfl, (spells_transitions t).bind fun _ => takes_pure _ _⟩ ?_
  exact .nil _

theorem takes_print : form.read.Takes (print t) t.toLayout [] := by
  have taken := Form.takes_read (filled_members t) (layout_draft t) []
  rwa [List.append_nil, ← print_eq_object] at taken

theorem decode_encode_record : decode (encode t) = .ok t := by
  have whole := (takes_print t).document
  rw [decode]
  show (during _ (form.read.document (Json.utf8 (print t))) >>= Layout.check) = .ok t
  rw [whole]
  exact Binary.check_toLayout t

end Fields

end SyntaxPaint.Record

namespace SyntaxPaint.Tables

/-- Tables are read back from their JSON form, whatever characters their name and labels have. Those
that also have a binary form are the same in both forms. -/
theorem decode_encode_json (t : Tables) :
    ∃ b, t.encode .json = .ok b ∧ decode .json b = .ok t ∧
      ∀ c, t.encode .binary = .ok c → decode .json b = decode .binary c := by
  have json := Record.decode_encode_record t
  refine ⟨Record.encode t, rfl, json, ?_⟩
  intro c made
  obtain ⟨fits, rfl⟩ := Binary.encode_eq_ok_iff.1 made
  have binary : Binary.decode (Binary.form t) = .ok t := by
    have taken := (Binary.Read.takes_layout t fits).whole []
    rw [List.append_nil] at taken
    rw [Binary.decode, taken]
    exact Binary.check_toLayout t
  exact json.trans binary.symm

def quoted : Tables where
  name := "\"C:\\é\" 中😀\x7f"
  numStates := 1
  numClasses := 1
  classes := .replicate 256 0
  accept := #[false]
  labels := #["\x00\x08\t\n\x0c\r\x1f/"]
  transitions := #[0]
  numStates_lt := by decide
  numClasses_lt := by decide
  valid := by
    constructor
    all_goals simp

theorem decode_encode_json_quoted :
    ∃ b c, quoted.encode .json = .ok b ∧ quoted.encode .binary = .ok c ∧
      decode .json b = .ok quoted ∧
      decode .binary c = .ok quoted := by
  obtain ⟨b, written, json, same⟩ := decode_encode_json quoted
  have fits : Binary.Fits quoted := ⟨by decide, by decide⟩
  have made : quoted.encode .binary = .ok (Binary.form quoted) :=
    Binary.encode_eq_ok_iff.2 ⟨fits, rfl⟩
  exact ⟨b, Binary.form quoted, written, made, json, (same _ made).symm.trans json⟩

end SyntaxPaint.Tables

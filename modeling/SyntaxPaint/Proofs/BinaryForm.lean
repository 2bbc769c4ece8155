import SyntaxPaint.Proofs.BitPacking
import SyntaxPaint.Tables.Language

/-!
Tables in binary form. Each part of the form says by itself where it ends: a reading takes it
whatever follows, and finds too few bytes when it has been cut off (`Read.Takes`). Both hold of
parts one after the other, so that they hold of all tables.
-/

namespace SyntaxPaint.Binary

open Text (Bytes)

def Truncated {α : Type} (result : Except Error α) : Prop :=
  ∃ part need held, held < need ∧ result = fail (.truncated part need held)

theorem Truncated.bind {α β : Type} {result : Except Error α} (truncated : Truncated result)
    (next : α → Except Error β) : Truncated (result >>= next) := by
  obtain ⟨part, need, held, less, rfl⟩ := truncated
  exact ⟨part, need, held, less, rfl⟩

theorem Truncated.exists_message {α : Type} {result : Except Error α}
    (truncated : Truncated result) :
    ∃ (e : Error) (part : String) (need held : Nat), result = .error e ∧ held < need ∧
      e.message = s!"truncated {part}: need {need} bytes, have {held}" := by
  obtain ⟨part, need, held, less, rfl⟩ := truncated
  exact ⟨.ofCause (.truncated part need held), part, need, held, rfl, less, rfl⟩

def written (s : String) : Bytes :=
  word s.utf8ByteSize ++ Bytes.ofString s

structure Fits (t : Tables) : Prop where
  name_lt : t.name.utf8ByteSize < 65536
  label_lt : ∀ label ∈ t.labels, label.utf8ByteSize < 65536

def form (t : Tables) : Bytes :=
  magic ++ doubleWord t.numStates ++ doubleWord t.numClasses ++
    t.classes.toArray.toList.flatMap word ++ packBits t.accept.toList ++
    t.labels.toList.flatMap written ++ t.transitions.toList.flatMap word ++ written t.name

namespace Read

/-- A reading takes some bytes for a value, whatever follows them, and none of them may be missing
at the end. -/
structure Takes {α : Type} (read : Read α) (b : Bytes) (a : α) : Prop where
  whole : ∀ rest, read (b ++ rest) = .ok (a, rest)
  short : ∀ cut, cut <+: b → cut ≠ b → Truncated (read cut)

variable {α β : Type} {read : Read α} {next : α → Read β} {b : Bytes} {a : α}

theorem bind_apply (read : Read α) (next : α → Read β) (b : Bytes) :
    (read >>= next) b = read b >>= fun p => next p.1 p.2 := rfl

theorem takes_pure (a : α) : Takes (pure a) [] a where
  whole _ := rfl
  short _ cut other := absurd (List.prefix_nil.1 cut) other

theorem Takes.bind {later : Bytes} {c : β} (first : read.Takes b a)
    (second : (next a).Takes later c) :
    Takes (read >>= next) (b ++ later) c where
  whole rest := by
    rw [bind_apply, List.append_assoc, first.whole]
    exact second.whole rest
  short cut inside other := by
    rw [bind_apply]
    have inFirst (start : cut <+: b) (strict : cut ≠ b) :
        Truncated (read cut >>= fun p => next p.1 p.2) :=
      (first.short cut start strict).bind _
    rcases List.prefix_or_prefix_of_prefix inside (List.prefix_append b later) with
      start | ⟨more, rfl⟩
    · by_cases all : cut = b
      · have missing : ([] : Bytes) ≠ later := by
          rintro rfl
          rw [List.append_nil] at other
          exact other all
        have whole := first.whole []
        rw [List.append_nil] at whole
        rw [all, whole]
        exact second.short [] List.nil_prefix missing
      · exact inFirst start all
    · rw [first.whole]
      exact second.short more ((List.prefix_append_right_inj b).1 inside) fun same =>
        other (by rw [same])

theorem Takes.map (taken : read.Takes b a) (f : α → β) : Takes (f <$> read) b (f a) where
  whole rest := by
    have read_eq := taken.whole rest
    show (read (b ++ rest) >>= fun p => pure (f p.1, p.2)) = _
    rw [read_eq]
    rfl
  short cut inside other := (taken.short cut inside other).bind _

theorem takes_bytes (part : String) {n : Nat} (size : b.length = n) : Takes (bytes part n) b b where
  whole rest := by
    rw [bytes, List.splitAt_eq, List.take_left' size, List.drop_left' size]
    exact if_pos size
  short cut inside other := by
    have fewer : cut.length < n := by
      rw [← size]
      exact Nat.lt_of_le_of_ne inside.length_le fun same => other (inside.eq_of_length same)
    refine ⟨part, n, cut.length, fewer, ?_⟩
    rw [bytes, List.splitAt_eq, List.take_of_length_le (Nat.le_of_lt fewer)]
    exact if_neg (Nat.ne_of_lt fewer)

theorem value_word {n : Nat} (small : n < 65536) : value (Binary.word n) = n := by
  have bytes : value (Binary.word n) = n % 256 + 256 * (n / 256 % 256) := by
    simp [value, Binary.word]
  omega

theorem value_doubleWord {n : Nat} (small : n < 65536) : value (Binary.doubleWord n) = n := by
  have high : n / 65536 = 0 := Nat.div_eq_of_lt small
  have bytes : value (Binary.doubleWord n) = n % 256 + 256 * (n / 256 % 256) := by
    simp [value, Binary.doubleWord, Binary.word, high]
  omega

theorem takes_word (part : String) {n : Nat} (small : n < 65536) :
    Takes (word part) (Binary.word n) n := by
  have taken := (takes_bytes part (b := Binary.word n) rfl).map value
  rwa [value_word small] at taken

theorem takes_count (part : String) (n : { n : Nat // n < 65536 }) :
    Takes (count part) (Binary.doubleWord n) n := by
  have taken := (takes_bytes part (b := Binary.doubleWord n) rfl).map value
  rw [value_doubleWord n.property] at taken
  have all : Takes (count part) (Binary.doubleWord n ++ []) n := by
    refine Takes.bind taken ?_
    rw [dif_pos n.property]
    exact takes_pure n
  rwa [List.append_nil] at all

theorem takes_text (part : String) {s : String} (fits : s.utf8ByteSize < 65536) :
    Takes (text part) (written s) s := by
  have all : Takes (text part) (Binary.word s.utf8ByteSize ++ (Bytes.ofString s ++ [])) s := by
    refine (takes_word part fits).bind ?_
    refine (takes_bytes part (Bytes.length_ofString s)).bind ?_
    rw [Bytes.decode?_ofString]
    exact takes_pure s
  rwa [List.append_nil] at all

theorem items_succ (item : Read α) (n : Nat) (before : List α) :
    items item (n + 1) before = item >>= fun a => items item n (a :: before) := by
  funext b
  simp only [items, bind_apply]
  cases item b with
  | ok p => rfl
  | error e => rfl

theorem takes_items_after {item : Read α} {write : α → Bytes} {values : List α}
    (each : ∀ a ∈ values, item.Takes (write a) a) (before : List α) :
    Takes (items item values.length before) (values.flatMap write) (before.reverse ++ values) := by
  induction values generalizing before with
  | nil =>
    rw [List.append_nil]
    exact takes_pure before.reverse
  | cons a values ih =>
    obtain ⟨here, below⟩ := List.forall_mem_cons.1 each
    have later := ih below (a :: before)
    rw [List.reverse_cons, List.append_assoc] at later
    rw [List.length_cons, items_succ]
    exact here.bind later

theorem takes_items {item : Read α} {write : α → Bytes} {values : List α} {n : Nat}
    (each : ∀ a ∈ values, item.Takes (write a) a) (size : values.length = n) :
    Takes (items item n []) (values.flatMap write) values := by
  rw [← size]
  exact takes_items_after each []

theorem takes_words (part : String) {values : List Nat} {n : Nat} (small : ∀ v ∈ values, v < 65536)
    (size : values.length = n) :
    Takes (items (word part) n []) (values.flatMap Binary.word) values :=
  takes_items (fun v listed => takes_word part (small v listed)) size

end Read

theorem classMap_toList_classes (classes : Vector Nat 256) :
    Layout.classMap classes.toArray.toList = classes := by
  apply Vector.toArray_inj.1
  apply Array.toList_inj.1
  exact Layout.classMap_toList _ (by simp)

def formWith (l : Layout) (accept : Bytes) : Bytes :=
  magic ++ doubleWord l.numStates ++ doubleWord l.numClasses ++
    l.classes.toArray.toList.flatMap word ++ accept ++ l.labels.toList.flatMap written ++
    l.transitions.toList.flatMap word ++ written l.name

theorem form_eq (t : Tables) : form t = formWith t.toLayout (packBits t.accept.toList) := rfl

theorem length_packBits_accept (t : Tables) :
    (packBits t.accept.toList).length = bitBytes t.numStates := by
  rw [length_packBits, Array.length_toList, t.valid.accept_size]

theorem unpackBits_packBits_accept (t : Tables) :
    unpackBits t.numStates (packBits t.accept.toList) = t.accept.toList := by
  have unpacked := unpackBits_packBits t.accept.toList
  rwa [Array.length_toList, t.valid.accept_size] at unpacked

namespace Read

theorem takes_formWith (t : Tables) (fits : Fits t) {accept : Bytes}
    (size : accept.length = bitBytes t.numStates)
    (unpacked : unpackBits t.numStates accept = t.accept.toList) :
    Takes layout (formWith t.toLayout accept) t.toLayout := by
  have valid := t.valid
  have classes : ∀ c ∈ t.classes.toArray.toList, c < 65536 := fun c listed =>
    Nat.lt_trans (valid.class_lt c (Array.mem_toList_iff.1 listed)) t.numClasses_lt
  have targets : ∀ s ∈ t.transitions.toList, s < 65536 := fun s listed =>
    Nat.lt_trans (valid.target_lt s (Array.mem_toList_iff.1 listed)) t.numStates_lt
  have labels : ∀ s ∈ t.labels.toList, (text "label").Takes (written s) s := fun s listed =>
    takes_text "label" (fits.label_lt s (Array.mem_toList_iff.1 listed))
  have start : Takes (bytes "magic" 8) magic magic := takes_bytes "magic" (by decide)
  have parts : Takes layout
      (magic ++ (Binary.doubleWord t.numStates ++ (Binary.doubleWord t.numClasses ++
        (t.classes.toArray.toList.flatMap Binary.word ++ (accept ++
          (t.labels.toList.flatMap written ++
            (t.transitions.toList.flatMap Binary.word ++ (written t.name ++ []))))))))
      t.toLayout := by
    refine start.bind ?_
    rw [if_pos rfl]
    refine (takes_count "num_states" ⟨t.numStates, t.numStates_lt⟩).bind ?_
    refine (takes_count "num_alphabets" ⟨t.numClasses, t.numClasses_lt⟩).bind ?_
    refine (takes_words "alphabet_of" classes t.classes.size_toArray).bind ?_
    refine (takes_bytes "accept bits" size).bind ?_
    refine (takes_items labels valid.labels_size).bind ?_
    refine (takes_words "transitions" targets valid.transitions_size).bind ?_
    refine (takes_text "name" fits.name_lt).bind ?_
    simp only [classMap_toList_classes, unpacked]
    exact takes_pure t.toLayout
  rw [List.append_nil] at parts
  simpa only [formWith, List.append_assoc] using parts

theorem takes_layout (t : Tables) (fits : Fits t) : Takes layout (form t) t.toLayout :=
  takes_formWith t fits (length_packBits_accept t) (unpackBits_packBits_accept t)

end Read

theorem text_eq_ok_iff {s : String} {b : Bytes} :
    text s = .ok b ↔ s.utf8ByteSize < 65536 ∧ written s = b := by
  unfold text written
  by_cases fits : s.utf8ByteSize < 65536
  · rw [if_pos fits, Except.ok.injEq, and_iff_right fits]
  · rw [if_neg fits]
    simp [fits, fail]

theorem mapM_text_eq_ok_iff {labels : List String} {parts : List Bytes} :
    labels.mapM text = .ok parts ↔
      (∀ s ∈ labels, s.utf8ByteSize < 65536) ∧ labels.map written = parts := by
  induction labels generalizing parts with
  | nil => simp [pure, Except.pure]
  | cons s labels ih =>
    rw [List.mapM_cons, bind_eq_ok_iff, List.forall_mem_cons, List.map_cons]
    constructor
    · rintro ⟨part, first, rest⟩
      obtain ⟨others, later, made⟩ := bind_eq_ok_iff.1 rest
      obtain ⟨fits, rfl⟩ := text_eq_ok_iff.1 first
      obtain ⟨below, rfl⟩ := ih.1 later
      exact ⟨⟨fits, below⟩, Except.ok.inj made⟩
    · rintro ⟨⟨fits, below⟩, rfl⟩
      have first : text s = .ok (written s) := text_eq_ok_iff.2 ⟨fits, rfl⟩
      have later : labels.mapM text = .ok (labels.map written) := ih.2 ⟨below, rfl⟩
      exact ⟨written s, first, bind_eq_ok_iff.2 ⟨labels.map written, later, rfl⟩⟩

theorem encode_eq_ok_iff {t : Tables} {b : Bytes} : encode t = .ok b ↔ Fits t ∧ form t = b := by
  rw [encode, bind_eq_ok_iff]
  constructor
  · rintro ⟨parts, labels, rest⟩
    obtain ⟨spelled, name, made⟩ := bind_eq_ok_iff.1 rest
    obtain ⟨below, rfl⟩ := mapM_text_eq_ok_iff.1 labels
    obtain ⟨fits, rfl⟩ := text_eq_ok_iff.1 name
    exact ⟨⟨fits, fun s listed => below s (Array.mem_toList_iff.2 listed)⟩, Except.ok.inj made⟩
  · rintro ⟨fits, rfl⟩
    have labels : t.labels.toList.mapM text = .ok (t.labels.toList.map written) :=
      mapM_text_eq_ok_iff.2 ⟨fun s listed => fits.label_lt s (Array.mem_toList_iff.1 listed), rfl⟩
    have name : text t.name = .ok (written t.name) := text_eq_ok_iff.2 ⟨fits.name_lt, rfl⟩
    exact ⟨t.labels.toList.map written, labels, bind_eq_ok_iff.2 ⟨written t.name, name, rfl⟩⟩

theorem check_toLayout (t : Tables) : t.toLayout.check = .ok t := by
  have none : t.toLayout.fault? = none := t.toLayout.fault?_eq_none_iff.2 t.valid
  unfold Layout.check
  split
  · rfl
  · next fault found =>
    rw [none] at found
    contradiction

/-- Tables can be written exactly when sixteen bits hold the length of their name and of each label.
They are then read back as they were, whatever stands behind them, and any first part alone is
refused as truncated. -/
theorem decode_encode (t : Tables) :
    ((∃ b, encode t = .ok b) ↔
        t.name.utf8ByteSize ≤ 65535 ∧ ∀ label ∈ t.labels, label.utf8ByteSize ≤ 65535) ∧
      ∀ b, encode t = .ok b → (∀ rest, decode (b ++ rest) = .ok t) ∧
        ∀ cut, cut <+: b → cut ≠ b →
          ∃ (e : Error) (part : String) (need held : Nat), decode cut = .error e ∧ held < need ∧
            e.message = s!"truncated {part}: need {need} bytes, have {held}" := by
  constructor
  · constructor
    · rintro ⟨b, made⟩
      obtain ⟨fits, -⟩ := encode_eq_ok_iff.1 made
      exact ⟨Nat.le_of_lt_succ fits.name_lt, fun s listed =>
        Nat.le_of_lt_succ (fits.label_lt s listed)⟩
    · rintro ⟨name, labels⟩
      have fits : Fits t :=
        ⟨Nat.lt_succ_of_le name, fun s listed => Nat.lt_succ_of_le (labels s listed)⟩
      exact ⟨form t, encode_eq_ok_iff.2 ⟨fits, rfl⟩⟩
  · intro b made
    obtain ⟨fits, rfl⟩ := encode_eq_ok_iff.1 made
    have taken := Read.takes_layout t fits
    constructor
    · intro rest
      rw [decode, taken.whole]
      exact check_toLayout t
    · intro cut inside other
      have truncated : Truncated (decode cut) := (taken.short cut inside other).bind _
      exact truncated.exists_message

theorem decode_encode_gn :
    ∃ b, encode Language.gn.tables = .ok b ∧ decode (b ++ [0]) = .ok Language.gn.tables ∧
      magic <+: b ∧
      magic ≠ b ∧
      ∃ (e : Error) (part : String) (need held : Nat), decode magic = .error e ∧ held < need ∧
        e.message = s!"truncated {part}: need {need} bytes, have {held}" := by
  obtain ⟨writes, reads⟩ := decode_encode Language.gn.tables
  obtain ⟨b, made⟩ := writes.2 (by decide +kernel)
  obtain ⟨whole, short⟩ := reads b made
  obtain ⟨-, same⟩ := encode_eq_ok_iff.1 made
  have begins : magic <+: b := by
    rw [← same]
    simp only [form, List.append_assoc]
    exact List.prefix_append magic _
  have longer : magic.length < b.length := by
    have counts : (doubleWord Language.gn.tables.numStates).length = 4 := rfl
    rw [← same]
    simp only [form, List.length_append]
    omega
  have more : magic ≠ b := fun equal => Nat.ne_of_lt longer (congrArg List.length equal)
  exact ⟨b, made, whole [0], begins, more, short magic begins more⟩

end SyntaxPaint.Binary

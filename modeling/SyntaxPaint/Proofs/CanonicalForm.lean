import Mathlib.Data.List.Basic
import SyntaxPaint.Proofs.BinaryForm

/-!
Only forms of tables are read. Each part that a reading takes is written as it was read, so that
bytes which give tables begin with the form of these tables; they may differ from it in those bits
of the last accept byte that belong to no state, and in nothing else.
-/

namespace SyntaxPaint.Binary

open Text (Bytes)

/-- Where the accept bits begin: behind the magic text, two counts and the class map. -/
def acceptPlace : Nat := 8 + 4 + 4 + 2 * 256

/-- How many bits of the byte at a place mean something. In the last byte of the accept bits these
are as many as there are states left, and the bits above them are padding. -/
def usedBits (states place : Nat) : Nat :=
  if states % 8 ≠ 0 ∧ place = acceptPlace + states / 8 then states % 8 else 8

def unpadded (states : Nat) (b : Bytes) : List Nat :=
  b.mapIdx fun place x => x.toNat % 2 ^ usedBits states place

section Unpadded

variable {states : Nat} {l : Layout} {accept b : Bytes}

theorem length_unpadded (states : Nat) (b : Bytes) : (unpadded states b).length = b.length :=
  List.length_mapIdx

theorem mapIdx_of_usedBits {start : Nat} (b : Bytes)
    (all : ∀ i < b.length, usedBits states (i + start) = 8) :
    (b.mapIdx fun i x => x.toNat % 2 ^ usedBits states (i + start)) = b.map UInt8.toNat := by
  apply List.ext_getElem
  · simp
  · intro i inside _
    rw [List.length_mapIdx] at inside
    rw [List.getElem_mapIdx, List.getElem_map, all i inside]
    exact Nat.mod_eq_of_lt (UInt8.toNat_lt _)

theorem unpadded_append {front back : Bytes} (place : front.length = acceptPlace)
    (size : accept.length = bitBytes states) :
    unpadded states (front ++ accept ++ back) =
      front.map UInt8.toNat ++ packedNumbers states accept ++ back.map UInt8.toNat := by
  have inFront : ∀ i < front.length, usedBits states (i + 0) = 8 := by
    intro i inside
    exact if_neg (by omega)
  have inBack : ∀ i < back.length, usedBits states (i + (front ++ accept).length) = 8 := by
    intro i inside
    refine if_neg ?_
    rw [List.length_append, place, size, bitBytes]
    omega
  have bits : (accept.mapIdx fun i x => x.toNat % 2 ^ usedBits states (i + front.length)) =
      packedNumbers states accept := by
    apply List.ext_getElem
    · simp [packedNumbers]
    · intro i inside _
      rw [List.length_mapIdx, size, bitBytes] at inside
      have used : usedBits states (i + front.length) = min (states - 8 * i) 8 := by
        rw [usedBits, place]
        split <;> omega
      simp only [packedNumbers, List.getElem_mapIdx, used]
  have head := mapIdx_of_usedBits front inFront
  simp only [Nat.add_zero] at head
  rw [unpadded, List.mapIdx_append, List.mapIdx_append, head, bits, mapIdx_of_usedBits back inBack]

def front (l : Layout) : Bytes :=
  magic ++ doubleWord l.numStates ++ doubleWord l.numClasses ++
    l.classes.toArray.toList.flatMap word

def back (l : Layout) : Bytes :=
  l.labels.toList.flatMap written ++ l.transitions.toList.flatMap word ++ written l.name

theorem formWith_eq (l : Layout) (accept : Bytes) :
    formWith l accept = front l ++ accept ++ back l := by
  simp only [formWith, front, back, List.append_assoc]

theorem length_flatMap_word (numbers : List Nat) :
    (numbers.flatMap word).length = 2 * numbers.length := by
  induction numbers with
  | nil => rfl
  | cons n numbers ih =>
    have two : (word n).length = 2 := rfl
    rw [List.flatMap_cons, List.length_append, ih, two, List.length_cons]
    omega

theorem length_front (l : Layout) : (front l).length = acceptPlace := by
  have start : (magic ++ doubleWord l.numStates ++ doubleWord l.numClasses).length = 8 + 4 + 4 :=
    rfl
  have map : (l.classes.toArray.toList.flatMap word).length = 2 * 256 := by
    rw [length_flatMap_word, Array.length_toList, l.classes.size_toArray]
  rw [front, List.length_append, start, map, acceptPlace]

theorem unpadded_formWith (l : Layout) (size : accept.length = bitBytes l.numStates) :
    unpadded l.numStates (formWith l accept) =
      (front l).map UInt8.toNat ++ packedNumbers l.numStates accept ++
      (back l).map UInt8.toNat := by
  rw [formWith_eq, unpadded_append (length_front l) size]

theorem exists_append_append {α : Type} {i j k : Nat} {c : List α} (size : c.length = i + j + k) :
    ∃ first middle last, c = first ++ middle ++ last ∧ first.length = i ∧ middle.length = j ∧
      last.length = k := by
  refine ⟨c.take i, (c.drop i).take j, (c.drop i).drop j, ?_, ?_, ?_, ?_⟩
  · rw [List.append_assoc, List.take_append_drop, List.take_append_drop]
  all_goals
    simp
    omega

theorem unpadded_take_eq_iff (l : Layout) (size : accept.length = bitBytes l.numStates) :
    unpadded l.numStates (b.take (formWith l accept).length) =
        unpadded l.numStates (formWith l accept) ↔
      ∃ other rest, other.length = bitBytes l.numStates ∧
        unpackBits l.numStates other = unpackBits l.numStates accept ∧
        b = formWith l other ++ rest := by
  have enough : l.numStates ≤ 8 * accept.length := by
    rw [size, bitBytes]
    omega
  rw [unpadded_formWith l size]
  constructor
  · intro same
    have whole : (b.take (formWith l accept).length).length =
        (front l).length + accept.length + (back l).length := by
      have sizes := congrArg List.length same
      simpa [length_unpadded, packedNumbers, Nat.add_assoc] using sizes
    -- The bytes are cut where the accept bits of the form begin and end, and compared part by part.
    obtain ⟨first, other, last, cut, firstSize, otherSize, lastSize⟩ := exists_append_append whole
    have placed : first.length = acceptPlace := firstSize.trans (length_front l)
    rw [cut, unpadded_append placed (otherSize.trans size)] at same
    have lengths : (first.map UInt8.toNat ++ packedNumbers l.numStates other).length =
        ((front l).map UInt8.toNat ++ packedNumbers l.numStates accept).length := by
      simp [packedNumbers, firstSize, otherSize]
    obtain ⟨begins, ends⟩ := List.append_inj same lengths
    obtain ⟨starts, bits⟩ := List.append_inj begins (by simp [firstSize])
    have injective : Function.Injective (List.map UInt8.toNat) :=
      List.map_injective_iff.2 fun x y => UInt8.toNat_inj.1
    obtain rfl : first = front l := injective starts
    obtain rfl : last = back l := injective ends
    refine ⟨other, b.drop (formWith l accept).length, otherSize.trans size, ?_, ?_⟩
    · exact (unpackBits_eq_iff otherSize (otherSize ▸ enough)).2 bits
    · rw [formWith_eq l other, ← cut, List.take_append_drop]
  · rintro ⟨other, rest, otherSize, bits, rfl⟩
    have lengths : (formWith l accept).length = (formWith l other).length := by
      simp [formWith_eq, size, otherSize]
    rw [lengths, List.take_left, unpadded_formWith l otherSize]
    rw [unpackBits_eq_iff (otherSize.trans size.symm) (by omega)] at bits
    rw [bits]

end Unpadded

namespace Read

variable {α β : Type} {read : Read α} {next : α → Read β} {b rest : Bytes}

theorem bind_eq_ok_iff {c : β} :
    (read >>= next) b = .ok (c, rest) ↔
      ∃ a later, read b = .ok (a, later) ∧ next a later = .ok (c, rest) := by
  rw [bind_apply, SyntaxPaint.bind_eq_ok_iff, Prod.exists]

theorem value_cons (x : UInt8) (b : Bytes) : value (x :: b) = x.toNat + 256 * value b := rfl

theorem value_cons_div (x : UInt8) (b : Bytes) : value (x :: b) / 256 = value b := by
  have small := UInt8.toNat_lt x
  rw [value_cons]
  omega

theorem ofNat_value_cons (x : UInt8) (b : Bytes) : UInt8.ofNat (value (x :: b)) = x := by
  have small := UInt8.toNat_lt x
  apply UInt8.toNat_inj.1
  rw [UInt8.toNat_ofNat', value_cons]
  omega

theorem value_lt (b : Bytes) : value b < 256 ^ b.length := by
  induction b with
  | nil => decide
  | cons x b ih =>
    have small := UInt8.toNat_lt x
    rw [value_cons, List.length_cons, Nat.pow_succ]
    omega

theorem word_value {b : Bytes} (size : b.length = 2) : Binary.word (value b) = b := by
  obtain ⟨x, y, rfl⟩ := List.length_eq_two.1 size
  rw [Binary.word, value_cons_div, ofNat_value_cons, ofNat_value_cons]

theorem doubleWord_value {b : Bytes} (size : b.length = 4) : Binary.doubleWord (value b) = b := by
  match b, size with
  | [x, y, z, w], _ =>
    have low : Binary.word (value [x, y, z, w]) = [x, y] := by
      rw [Binary.word, value_cons_div, ofNat_value_cons, ofNat_value_cons]
    have high : value [x, y, z, w] / 65536 = value [z, w] := by
      rw [← value_cons_div y [z, w], ← value_cons_div x [y, z, w], Nat.div_div_eq_div_mul]
    rw [Binary.doubleWord, low, high, word_value (b := [z, w]) rfl]
    rfl

/-- What a reading takes is what is written for the value that it gives, and the value is one that
can be written. -/
def Gives (read : Read α) (good : α → Prop) (write : α → Bytes) : Prop :=
  ∀ b a rest, read b = .ok (a, rest) → good a ∧ b = write a ++ rest

theorem Gives.map {good : α → Prop} {write : α → Bytes} {good' : β → Prop} {write' : β → Bytes}
    (f : α → β) (gives : read.Gives good write)
    (same : ∀ a, good a → good' (f a) ∧ write' (f a) = write a) :
    Gives (f <$> read) good' write' := by
  intro b c rest made
  obtain ⟨⟨a, later⟩, first, result⟩ := SyntaxPaint.bind_eq_ok_iff.1 made
  obtain ⟨rfl, rfl⟩ := Prod.mk.inj (Except.ok.inj result)
  obtain ⟨fits, cut⟩ := gives b a later first
  obtain ⟨fits', written⟩ := same a fits
  exact ⟨fits', written.symm ▸ cut⟩

theorem gives_bytes (part : String) (n : Nat) : (bytes part n).Gives (·.length = n) id := by
  intro b a rest made
  unfold bytes at made
  rw [List.splitAt_eq] at made
  dsimp only at made
  split at made
  · next full =>
    obtain ⟨rfl, rfl⟩ := Prod.mk.inj (Except.ok.inj made)
    exact ⟨full, (List.take_append_drop n b).symm⟩
  · contradiction

theorem gives_word (part : String) : (word part).Gives (· < 65536) Binary.word := by
  refine (gives_bytes part 2).map value fun b size => ⟨?_, word_value size⟩
  have small := value_lt b
  rwa [size] at small

theorem gives_doubleWord (part : String) :
    (doubleWord part).Gives (fun _ => True) Binary.doubleWord :=
  (gives_bytes part 4).map value fun _ size => ⟨trivial, doubleWord_value size⟩

theorem gives_count (part : String) :
    (count part).Gives (fun _ => True) fun n => Binary.doubleWord n := by
  intro b a rest made
  obtain ⟨n, later, first, result⟩ := bind_eq_ok_iff.1 made
  split at result
  · next small =>
    obtain ⟨rfl, rfl⟩ := Prod.mk.inj (Except.ok.inj result)
    exact gives_doubleWord part b n later first
  · contradiction

theorem gives_text (part : String) : (text part).Gives (·.utf8ByteSize < 65536) written := by
  intro b a rest made
  obtain ⟨length, b1, first, after⟩ := bind_eq_ok_iff.1 made
  obtain ⟨spelled, b2, second, result⟩ := bind_eq_ok_iff.1 after
  obtain ⟨small, rfl⟩ := gives_word part b length b1 first
  obtain ⟨size, rfl⟩ := gives_bytes part length b1 spelled b2 second
  cases decoded : Bytes.decode? spelled with
  | none =>
    rw [decoded] at result
    contradiction
  | some s =>
    rw [decoded] at result
    obtain ⟨rfl, rfl⟩ := Prod.mk.inj (Except.ok.inj result)
    obtain rfl := Bytes.eq_ofString_of_decode? decoded
    rw [Bytes.length_ofString] at size
    rw [written, size, List.append_assoc]
    refine ⟨?_, rfl⟩
    rwa [← size] at small

theorem exists_of_items {item : Read α} {good : α → Prop} {write : α → Bytes}
    (gives : item.Gives good write) {n : Nat} {before all : List α}
    (made : items item n before b = .ok (all, rest)) :
    ∃ values, all = before.reverse ++ values ∧ values.length = n ∧ (∀ a ∈ values, good a) ∧
      b = values.flatMap write ++ rest := by
  induction n generalizing before b with
  | zero =>
    obtain ⟨rfl, rfl⟩ := Prod.mk.inj (Except.ok.inj made)
    exact ⟨[], by simp⟩
  | succ n ih =>
    rw [items_succ] at made
    obtain ⟨a, later, first, result⟩ := bind_eq_ok_iff.1 made
    obtain ⟨fits, rfl⟩ := gives b a later first
    obtain ⟨values, rfl, size, below, rfl⟩ := ih result
    refine ⟨a :: values, ?_, ?_, ?_, ?_⟩
    · rw [List.reverse_cons, List.append_assoc, List.singleton_append]
    · rw [List.length_cons, size]
    · exact List.forall_mem_cons.2 ⟨fits, below⟩
    · rw [List.flatMap_cons, List.append_assoc]

theorem gives_items {item : Read α} {good : α → Prop} {write : α → Bytes}
    (gives : item.Gives good write) (n : Nat) :
    (items item n []).Gives (fun values => values.length = n ∧ ∀ a ∈ values, good a)
      (·.flatMap write) := by
  intro b all rest made
  obtain ⟨values, rfl, size, below, cut⟩ := exists_of_items gives made
  exact ⟨⟨size, below⟩, cut⟩

theorem gives_layout {l : Layout} (made : layout b = .ok (l, rest)) :
    (l.name.utf8ByteSize < 65536 ∧ ∀ label ∈ l.labels, label.utf8ByteSize < 65536) ∧
      ∃ accept, accept.length = bitBytes l.numStates ∧
        unpackBits l.numStates accept = l.accept.toList ∧
        b = formWith l accept ++ rest := by
  obtain ⟨start, b1, read1, made⟩ := bind_eq_ok_iff.1 made
  split at made
  · next known =>
    obtain ⟨states, b2, read2, made⟩ := bind_eq_ok_iff.1 made
    obtain ⟨classes, b3, read3, made⟩ := bind_eq_ok_iff.1 made
    obtain ⟨map, b4, read4, made⟩ := bind_eq_ok_iff.1 made
    obtain ⟨accept, b5, read5, made⟩ := bind_eq_ok_iff.1 made
    obtain ⟨labels, b6, read6, made⟩ := bind_eq_ok_iff.1 made
    obtain ⟨transitions, b7, read7, made⟩ := bind_eq_ok_iff.1 made
    obtain ⟨name, b8, read8, made⟩ := bind_eq_ok_iff.1 made
    obtain ⟨rfl, rfl⟩ := Prod.mk.inj (Except.ok.inj made)
    -- Part by part, what a reading took is replaced by what is written for its value.
    obtain ⟨-, rfl⟩ := gives_bytes _ _ _ _ _ read1
    obtain ⟨-, rfl⟩ := gives_count _ _ _ _ read2
    obtain ⟨-, rfl⟩ := gives_count _ _ _ _ read3
    obtain ⟨⟨full, -⟩, rfl⟩ := gives_items (gives_word _) _ _ _ _ read4
    obtain ⟨size, rfl⟩ := gives_bytes _ _ _ _ _ read5
    obtain ⟨⟨-, short⟩, rfl⟩ := gives_items (gives_text _) _ _ _ _ read6
    obtain ⟨-, rfl⟩ := gives_items (gives_word _) _ _ _ _ read7
    obtain ⟨few, rfl⟩ := gives_text _ _ _ _ read8
    refine ⟨⟨few, fun label listed => short label (List.mem_toArray.1 listed)⟩,
      accept, size, rfl, ?_⟩
    rw [formWith, Layout.classMap_toList map full, known]
    simp only [id, List.append_assoc]
  · contradiction

end Read

section Decode

variable {t u : Tables} {b c : Bytes}

theorem decode_formWith (fits : Fits t) {accept : Bytes}
    (size : accept.length = bitBytes t.numStates)
    (unpacked : unpackBits t.numStates accept = t.accept.toList) (rest : Bytes) :
    decode (formWith t.toLayout accept ++ rest) = .ok t := by
  rw [decode, (Read.takes_formWith t fits size unpacked).whole rest]
  exact check_toLayout t

theorem decode_eq_ok_iff :
    decode b = .ok t ↔
      Fits t ∧ unpadded t.numStates (b.take (form t).length) = unpadded t.numStates (form t) := by
  rw [form_eq, unpadded_take_eq_iff t.toLayout (length_packBits_accept t),
    unpackBits_packBits_accept]
  constructor
  · intro made
    obtain ⟨⟨l, rest⟩, read, checked⟩ := bind_eq_ok_iff.1 made
    obtain rfl : t.toLayout = l := Layout.toLayout_of_check checked
    obtain ⟨⟨name, labels⟩, accept, size, unpacked, cut⟩ := Read.gives_layout read
    exact ⟨⟨name, labels⟩, accept, rest, size, unpacked, cut⟩
  · rintro ⟨fits, accept, rest, size, unpacked, rfl⟩
    exact decode_formWith fits size unpacked rest

/-- Bytes that are read as tables begin, up to the padding, with what is written for these tables.
So they tell the tables from all others that can be read. -/
theorem encode_of_decode (read : decode b = .ok t) :
    t.toLayout.Valid ∧
      ∃ w, encode t = .ok w ∧ w.length ≤ b.length ∧
        unpadded t.numStates (b.take w.length) = unpadded t.numStates w ∧
        ∀ c u, decode c = .ok u →
          (t = u ↔
            unpadded t.numStates (b.take w.length) = unpadded t.numStates (c.take w.length)) := by
  obtain ⟨fits, begins⟩ := decode_eq_ok_iff.1 read
  have enough : (form t).length ≤ b.length := by
    have sizes := congrArg List.length begins
    rw [length_unpadded, length_unpadded, List.length_take] at sizes
    omega
  refine ⟨t.valid, form t, encode_eq_ok_iff.2 ⟨fits, rfl⟩, enough, begins, fun c u readToo => ?_⟩
  rw [begins]
  constructor
  · rintro rfl
    exact (decode_eq_ok_iff.1 readToo).2.symm
  · intro same
    have readAs : decode c = .ok t := decode_eq_ok_iff.2 ⟨fits, same.symm⟩
    exact Except.ok.inj (readAs.symm.trans readToo)

/-- The tables of GN files have nine states, so that seven bits of the second accept byte are
padding; here these bits are set, and a byte follows. -/
theorem encode_of_decode_gn :
    let padded := formWith Language.gn.tables.toLayout [130, 254] ++ [0]
    let plain := formWith Language.gn.tables.toLayout [130, 0]
    decode padded = .ok Language.gn.tables ∧ padded ≠ plain ++ [0] ∧
      ∃ w, encode Language.gn.tables = .ok w ∧ w.length ≤ padded.length ∧
        unpadded 9 (padded.take w.length) = unpadded 9 w ∧
        unpadded 9 (padded.take w.length) = unpadded 9 (plain.take w.length) := by
  intro padded plain
  have fits : Fits Language.gn.tables := ⟨by decide +kernel, by decide +kernel⟩
  have read : decode padded = .ok Language.gn.tables :=
    decode_formWith fits (by decide +kernel) (by decide +kernel) [0]
  have readPlain : decode plain = .ok Language.gn.tables := by
    have whole : decode (plain ++ []) = .ok Language.gn.tables :=
      decode_formWith fits (by decide +kernel) (by decide +kernel) []
    rwa [List.append_nil] at whole
  have other : padded ≠ plain ++ [0] := by
    simp [padded, plain, formWith]
  obtain ⟨-, w, made, enough, begins, tells⟩ := encode_of_decode read
  exact ⟨read, other, w, made, enough, begins, (tells plain _ readPlain).1 rfl⟩

end Decode

end SyntaxPaint.Binary

import Mathlib.Algebra.Group.Nat.Defs
import SyntaxPaint.Tables.Binary

/-!
Bits in bytes, the lowest first. The last byte is filled up with zeros, and as many bits as have
been packed come out again. What else stands in the last byte changes none of them.
-/

namespace SyntaxPaint.Binary

open Text (Bytes)

def number (bits : List Bool) : Nat :=
  bits.foldr (fun b n => b.toNat + 2 * n) 0

theorem number_cons (b : Bool) (bits : List Bool) :
    number (b :: bits) = b.toNat + 2 * number bits := rfl

theorem number_lt (bits : List Bool) : number bits < 2 ^ bits.length := by
  induction bits with
  | nil => decide
  | cons b rest ih =>
    have bit : b.toNat ≤ 1 := Bool.toNat_le b
    rw [number_cons, List.length_cons, Nat.pow_succ]
    omega

theorem testBit_number (bits : List Bool) (i : Nat) :
    (number bits).testBit i = bits.getD i false := by
  induction bits generalizing i with
  | nil => simp [number]
  | cons b rest ih =>
    have bit : b.toNat ≤ 1 := Bool.toNat_le b
    cases i with
    | zero =>
      rw [number_cons, Nat.testBit_zero, Nat.add_mul_mod_self_left]
      cases b <;> rfl
    | succ i =>
      have half : number (b :: rest) / 2 = number rest := by
        rw [number_cons]
        omega
      rw [Nat.testBit_succ, half, ih, List.getD_cons_succ]

theorem toNat_byteOfBits {bits : List Bool} (few : bits.length ≤ 8) :
    (byteOfBits bits).toNat = number bits := by
  have small : number bits < 2 ^ 8 :=
    Nat.lt_of_lt_of_le (number_lt bits) (Nat.pow_le_pow_right (by decide) few)
  exact UInt8.toNat_ofNat'.trans (Nat.mod_eq_of_lt small)

theorem length_bitsOfByte (b : UInt8) : (bitsOfByte b).length = 8 := by
  simp [bitsOfByte]

theorem bitsOfByte_byteOfBits {bits : List Bool} (few : bits.length ≤ 8) :
    bitsOfByte (byteOfBits bits) = bits ++ List.replicate (8 - bits.length) false := by
  apply List.ext_getElem
  · rw [length_bitsOfByte, List.length_append, List.length_replicate]
    omega
  · intro i inside _
    have read : (bitsOfByte (byteOfBits bits))[i] = bits.getD i false := by
      simp only [bitsOfByte, List.getElem_map, List.getElem_range, toNat_byteOfBits few,
        testBit_number]
    rw [read, List.getD_eq_getElem?_getD]
    by_cases given : i < bits.length
    · rw [List.getElem_append_left given, List.getElem?_eq_getElem given, Option.getD_some]
    · rw [List.getElem_append_right (Nat.le_of_not_lt given), List.getElem_replicate,
        List.getElem?_eq_none (Nat.le_of_not_lt given), Option.getD_none]

theorem length_packBits (bits : List Bool) : (packBits bits).length = bitBytes bits.length := by
  induction bits using packBits.induct with
  | case1 =>
    rw [packBits]
    rfl
  | case2 first rest ih =>
    rw [packBits, List.length_cons, ih, bitBytes, bitBytes, List.length_drop, List.length_cons]
    omega

theorem exists_padding (bits : List Bool) :
    ∃ padding, (packBits bits).flatMap bitsOfByte = bits ++ padding := by
  induction bits using packBits.induct with
  | case1 => exact ⟨[], by rw [packBits, List.flatMap_nil, List.append_nil]⟩
  | case2 first rest ih =>
    obtain ⟨padding, unpacked⟩ := ih
    have few : ((first :: rest).take 8).length ≤ 8 := List.length_take_le 8 _
    have split : (first :: rest).take 8 ++ rest.drop 7 = first :: rest :=
      List.take_append_drop 8 (first :: rest)
    rw [packBits, List.flatMap_cons, bitsOfByte_byteOfBits few, unpacked]
    by_cases full : 8 ≤ (first :: rest).length
    · have whole : ((first :: rest).take 8).length = 8 := List.length_take_of_le full
      refine ⟨padding, ?_⟩
      rw [whole, Nat.sub_self, List.replicate_zero, List.append_nil, ← List.append_assoc, split]
    · have done : rest.drop 7 = [] := by
        rw [List.length_cons] at full
        exact List.drop_eq_nil_of_le (by omega)
      rw [done, List.append_nil] at split
      exact ⟨_, by rw [split, done, List.nil_append, List.append_assoc]⟩

theorem unpackBits_packBits (bits : List Bool) : unpackBits bits.length (packBits bits) = bits := by
  obtain ⟨padding, unpacked⟩ := exists_padding bits
  rw [unpackBits, unpacked, List.take_left]

theorem mod_two_pow_eq_iff {a b k : Nat} :
    a % 2 ^ k = b % 2 ^ k ↔ ∀ i < k, a.testBit i = b.testBit i := by
  constructor
  · intro same i inside
    have bit := congrArg (·.testBit i) same
    simpa [Nat.testBit_mod_two_pow, inside] using bit
  · intro same
    apply Nat.eq_of_testBit_eq
    intro i
    rw [Nat.testBit_mod_two_pow, Nat.testBit_mod_two_pow]
    by_cases inside : i < k
    · rw [same i inside]
    · simp [inside]

theorem take_bitsOfByte (b : UInt8) (n : Nat) :
    (bitsOfByte b).take n = (List.range (min n 8)).map b.toNat.testBit := by
  rw [bitsOfByte, ← List.map_take, List.take_range]

theorem take_bitsOfByte_eq_iff (b c : UInt8) (n : Nat) :
    (bitsOfByte b).take n = (bitsOfByte c).take n ↔
      b.toNat % 2 ^ min n 8 = c.toNat % 2 ^ min n 8 := by
  rw [take_bitsOfByte, take_bitsOfByte, List.map_inj_left, mod_two_pow_eq_iff]
  simp only [List.mem_range]

theorem unpackBits_cons (n : Nat) (x : UInt8) (b : Bytes) :
    unpackBits n (x :: b) = (bitsOfByte x).take n ++ unpackBits (n - 8) b := by
  rw [unpackBits, unpackBits, List.flatMap_cons, List.take_append, length_bitsOfByte]

/-- Each byte of packed bits as a number, of which only as many bits are kept as are packed. -/
def packedNumbers (n : Nat) (b : Bytes) : List Nat :=
  b.mapIdx fun i x => x.toNat % 2 ^ min (n - 8 * i) 8

theorem packedNumbers_cons (n : Nat) (x : UInt8) (b : Bytes) :
    packedNumbers n (x :: b) = x.toNat % 2 ^ min n 8 :: packedNumbers (n - 8) b := by
  have later (i : Nat) : n - 8 * (i + 1) = n - 8 - 8 * i := by omega
  simp [packedNumbers, List.mapIdx_cons, later]

theorem unpackBits_eq_iff {n : Nat} {b c : Bytes} (sizes : b.length = c.length)
    (enough : n ≤ 8 * b.length) :
    unpackBits n b = unpackBits n c ↔ packedNumbers n b = packedNumbers n c := by
  induction b generalizing n c with
  | nil =>
    obtain rfl := List.length_eq_zero_iff.1 sizes.symm
    simp
  | cons x b ih =>
    cases c with
    | nil => contradiction
    | cons y c =>
      rw [List.length_cons, List.length_cons, Nat.add_right_cancel_iff] at sizes
      rw [List.length_cons] at enough
      have front : ((bitsOfByte x).take n).length = ((bitsOfByte y).take n).length := by
        simp [length_bitsOfByte]
      rw [unpackBits_cons, unpackBits_cons, packedNumbers_cons, packedNumbers_cons, List.cons.injEq,
        ← take_bitsOfByte_eq_iff, ← ih sizes (by omega)]
      constructor
      · intro same
        exact List.append_inj same front
      · rintro ⟨first, later⟩
        rw [first, later]

end SyntaxPaint.Binary

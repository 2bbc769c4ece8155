import SyntaxPaint.Text.Bytes

/-!
The first place at which bytes fail to be UTF-8. A character is a first byte and up to three more,
each of which has to be in a range that the first byte settles.
-/

namespace SyntaxPaint.Text

structure Flaw where
  index : Nat
  /-- The number of bytes in it, unless the bytes end before it is complete. -/
  length : Option Nat
deriving DecidableEq, Repr

namespace Flaw

def message (f : Flaw) : String :=
  match f.length with
  | some n => s!"invalid utf-8 sequence of {n} bytes from index {f.index}"
  | none => s!"incomplete utf-8 byte sequence from index {f.index}"

abbrev Bounds := Nat × Nat

def tail : Bounds :=
  (0x80, 0xBF)

def tails? (first : Nat) : Option (List Bounds) :=
  if first < 0x80 then some []
  else if first < 0xC2 then none
  else if first < 0xE0 then some [tail]
  else if first = 0xE0 then some [(0xA0, 0xBF), tail]
  else if first = 0xED then some [(0x80, 0x9F), tail]
  else if first < 0xF0 then some [tail, tail]
  else if first = 0xF0 then some [(0x90, 0xBF), tail, tail]
  else if first < 0xF4 then some [tail, tail, tail]
  else if first = 0xF4 then some [(0x80, 0x8F), tail, tail]
  else none

/-- The first flaw of `start + held` bytes and those that follow. The last `held` bytes begin a
character that lacks the bytes in `missing`. The end counts as a flaw when there is no other. -/
def find (start held : Nat) (missing : List Bounds) : Bytes → Flaw
  | [] => ⟨if missing.isEmpty then start + held else start, none⟩
  | b :: rest =>
    match missing with
    | (least, greatest) :: missing =>
      if least ≤ b.toNat ∧ b.toNat ≤ greatest then find start (held + 1) missing rest
      else ⟨start, some held⟩
    | [] =>
      match tails? b.toNat with
      | some missing => find (start + held) 1 missing rest
      | none => ⟨start + held, some 1⟩

def first (b : Bytes) : Flaw :=
  find 0 0 [] b

end Flaw

end SyntaxPaint.Text

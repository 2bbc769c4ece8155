import Std.Data.TreeMap

/-!
Delimiters: characters that open or close, with the character that each is paired with, and
characters that escape the one after them. A quote is a left delimiter paired with itself, and does
both.
-/

namespace SyntaxPaint.Bracket

inductive Side
  | left
  | right
deriving DecidableEq, Repr

inductive Delimiter
  | bracket (side : Side) (partner : Nat)
  | escape
deriving DecidableEq, Repr

namespace Delimiter

def left (partner : Nat) : Delimiter :=
  bracket .left partner

def right (partner : Nat) : Delimiter :=
  bracket .right partner

def isSymmetric (d : Delimiter) (code : Nat) : Bool :=
  d == left code

end Delimiter

/-- The delimiters that a search goes by; every other character is none. -/
structure Table where
  entries : Std.TreeMap Nat Delimiter

namespace Table

def empty : Table :=
  ⟨∅⟩

def find? (t : Table) (code : Nat) : Option Delimiter :=
  t.entries[code]?

def set (t : Table) (code : Nat) (d : Delimiter) : Table :=
  ⟨t.entries.insert code d⟩

def erase (t : Table) (code : Nat) : Table :=
  ⟨t.entries.erase code⟩

def setPair (t : Table) (left right : Nat) : Table :=
  (t.set left (.left right)).set right (.right left)

def standard : Table :=
  let pair (t : Table) (left right : Char) := t.setPair left.toNat right.toNat
  let quote (t : Table) (c : Char) := t.set c.toNat (.left c.toNat)
  let pairs := pair (pair (pair empty '(' ')') '[' ']') '{' '}'
  (quote (quote pairs '"') '\'').set '\\'.toNat .escape

def same (t u : Table) : Bool :=
  t.entries.toList == u.entries.toList

@[simp] theorem find?_empty (code : Nat) : empty.find? code = none :=
  Std.TreeMap.getElem?_emptyc

theorem find?_set (t : Table) (code c : Nat) (d : Delimiter) :
    (t.set code d).find? c = if code = c then some d else t.find? c := by
  simp [set, find?, Std.TreeMap.getElem?_insert]

end Table

end SyntaxPaint.Bracket

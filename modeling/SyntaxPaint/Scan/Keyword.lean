import Std.Data.TreeSet
import SyntaxPaint.Tables.Language

/-!
Sets of words that identifiers are compared with, kept in the order of their characters.
-/

namespace SyntaxPaint

structure KeywordSet where
  words : Std.TreeSet String

namespace KeywordSet

def empty : KeywordSet :=
  ⟨∅⟩

def insert (k : KeywordSet) (word : String) : KeywordSet :=
  ⟨k.words.insert word⟩

def erase (k : KeywordSet) (word : String) : KeywordSet :=
  ⟨k.words.erase word⟩

def contains (k : KeywordSet) (word : String) : Bool :=
  k.words.contains word

def size (k : KeywordSet) : Nat :=
  k.words.size

def isEmpty (k : KeywordSet) : Bool :=
  k.words.isEmpty

def toList (k : KeywordSet) : List String :=
  k.words.toList

def insertAll (k : KeywordSet) (words : List String) : KeywordSet :=
  words.foldl insert k

def ofList (words : List String) : KeywordSet :=
  empty.insertAll words

def ofLanguage (name : String) : KeywordSet :=
  ofList (Language.keywordsOf name)

@[simp] theorem contains_empty (word : String) : empty.contains word = false :=
  Std.TreeSet.contains_emptyc

theorem compare_beq_eq (a b : String) : (compare a b == Ordering.eq) = (a == b) := by
  rw [Bool.eq_iff_iff, beq_iff_eq, beq_iff_eq, Std.compare_eq_iff_eq]

@[simp] theorem contains_insert (k : KeywordSet) (word w : String) :
    (k.insert word).contains w = (word == w || k.contains w) := by
  simp [insert, contains, Std.TreeSet.contains_insert, compare_beq_eq]

@[simp] theorem contains_erase (k : KeywordSet) (word w : String) :
    (k.erase word).contains w = (!(word == w) && k.contains w) := by
  simp only [erase, contains, Std.TreeSet.contains_erase, ← compare_beq_eq]
  rfl

@[simp] theorem contains_insertAll (k : KeywordSet) (words : List String) (w : String) :
    (k.insertAll words).contains w = (words.contains w || k.contains w) := by
  unfold insertAll
  induction words generalizing k with
  | nil => rfl
  | cons word rest ih =>
    rw [List.foldl_cons, ih, contains_insert, List.contains_cons, Bool.beq_comm (a := word)]
    cases w == word <;> simp

@[simp] theorem contains_ofList (words : List String) (w : String) :
    (ofList words).contains w = words.contains w := by
  rw [ofList, contains_insertAll, contains_empty, Bool.or_false]

end KeywordSet

end SyntaxPaint

import SyntaxPaint.Random.Source

/-!
Random texts to scan: sources that look like C, with strings and comments that may not end and
brackets that may not match, and balanced groups of brackets around identifiers and spaces.
-/

namespace SyntaxPaint.Specimen

open SyntaxPaint.Random

variable {σ : Type} [Source σ]

def times (count : Nat) (piece : Drawing σ (List Char)) : Drawing σ (List Char) :=
  match count with
  | 0 => pure []
  | count + 1 => do
    let first ← piece
    let rest ← times count piece
    return first ++ rest

def oneOf (chars : String) : Drawing σ (List Char) := do
  return [← pick chars.toList]

def letter : Drawing σ (List Char) :=
  oneOf "abcdefghijklmnopqrstuvwxyzABCDEFGHIJKLMNOPQRSTUVWXYZ_"

def digit : Drawing σ (List Char) :=
  oneOf "0123456789"

def identifier : Drawing σ (List Char) := do
  let length ← between 1 10
  let first ← letter
  let rest ← times (length - 1) do
    if ← chance .sevenTenths then letter else digit
  return first ++ rest

def number : Drawing σ (List Char) := do
  times (← between 1 6) digit

def blanks : Drawing σ (List Char) := do
  times (← between 1 4) (oneOf " \t\n")

def literal : Drawing σ (List Char) := do
  let quote := if ← chance .fourFifths then '"' else '\''
  let body ← times (← below 13) (oneOf "abc xyz()[]\x7b\x7d\\\"'")
  let closed ← chance .nineTenths
  return quote :: body ++ if closed then [quote] else []

def lineComment : Drawing σ (List Char) := do
  let body ← times (← below 25) (oneOf "abcdefghijklmnopqrstuvwxyz0123456789 +-*/()[]\x7b\x7d\"")
  return '/' :: '/' :: body ++ ['\n']

def commentPart : Drawing σ (List Char) := do
  let words ← times (← between 1 6) (oneOf "abcdefghijklmnopqrstuvwxyz0123456789 +-()[]\x7b\x7d\n")
  let starred ← chance .fifth
  return words ++ if starred then ['*'] else []

def blockComment : Drawing σ (List Char) := do
  let body ← times (← below 7) commentPart
  let closed ← chance .nineTenths
  return '/' :: '*' :: body ++ if closed then ['*', '/'] else []

def beyondAscii : Drawing σ (List Char) :=
  oneOf "éßλあ字€"

def operators : List String :=
  ["(", ")", "[", "]", "\x7b", "\x7d", "+", "-", "*", "/", "=", "==", ";", ",", ".", "<", ">", "!",
    "&&", "\\"]

def punctuation : Drawing σ (List Char) := do
  let operator ← pick operators
  let spaced ← chance .quarter
  return operator.toList ++ if spaced then [' '] else []

/-- A piece of source text; there is none for a roll past the last kind. -/
def piece : Drawing σ (List Char) := do
  let roll ← below 100
  if roll < 22 then identifier
  else if roll < 32 then number
  else if roll < 47 then blanks
  else if roll < 55 then literal
  else if roll < 60 then lineComment
  else if roll < 65 then blockComment
  else if roll < 70 then beyondAscii
  else if roll < 100 then punctuation
  else fun _ => none

def byteCount (chars : List Char) : Nat :=
  chars.foldr (fun c count => c.utf8Size + count) 0

@[simp] theorem byteCount_nil : byteCount [] = 0 := rfl

@[simp] theorem byteCount_cons (c : Char) (chars : List Char) :
    byteCount (c :: chars) = c.utf8Size + byteCount chars := rfl

@[simp] theorem byteCount_append (chars more : List Char) :
    byteCount (chars ++ more) = byteCount chars + byteCount more := by
  induction chars with
  | nil => simp
  | cons c chars ih => simp [ih, Nat.add_assoc]

/-- Adds pieces, last first, until the text has `target` bytes; it has `bytes` before that. There is
no result if this takes more than `rounds` pieces. -/
def fill (target : Nat) : (rounds bytes : Nat) → List (List Char) → Drawing σ (List (List Char))
  | 0, bytes, pieces => if bytes < target then fun _ => none else return pieces
  | rounds + 1, bytes, pieces => do
    if bytes < target then
      let added ← piece
      fill target rounds (bytes + byteCount added) (added :: pieces)
    else return pieces

def maxBytes : Nat :=
  9223372036854775807

def fits (target : Nat) : Bool :=
  target + target / 8 ≤ maxBytes

def sourceText (target : Nat) : Drawing σ String := do
  if fits target then
    let pieces ← fill target target 0 []
    return String.ofList pieces.reverse.flatten
  else fun _ => none

def source (target : Nat) : StateM σ String :=
  (sourceText target).text

def bracketPairs : List (Char × Char) :=
  [('(', ')'), ('[', ']'), ('{', '}')]

def filler : Drawing σ (List Char) := do
  if ← chance .half then identifier else return [' ']

/-- What stands in a group, given how a group in it is made. -/
def item (inner : Option (Drawing σ (List Char))) : Drawing σ (List Char) := do
  match inner with
  | some group => if ← chance .twoFifths then group else filler
  | none => filler

def enclosed (inner : Option (Drawing σ (List Char))) : Drawing σ (List Char) := do
  let pair ← pick bracketPairs
  let items ← times (← below 5) (item inner)
  return pair.1 :: items ++ [pair.2]

def group : (levels : Nat) → Drawing σ (List Char)
  | 0 => enclosed none
  | levels + 1 => enclosed (some (group levels))

/-- Brackets that match, at most `maxDepth` deep, but at least one pair. -/
def balancedText (maxDepth : Nat) : Drawing σ String := do
  return String.ofList (← group (maxDepth - 1))

def balanced (maxDepth : Nat) : StateM σ String :=
  (balancedText maxDepth).text

end SyntaxPaint.Specimen

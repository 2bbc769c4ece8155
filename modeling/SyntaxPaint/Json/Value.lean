import SyntaxPaint.Json.Number
import SyntaxPaint.Json.Text

/-!
Values of JSON that have to be of a kind. A value of another kind is read as far as its kind shows,
so that the fault can say what it is.
-/

namespace SyntaxPaint.Json

abbrev Word := { n : Nat // n < 65536 }

namespace Reader

variable {α : Type}

def seen : Reader Found := do
  match ← token with
  | some 'n' =>
    word ['u', 'l', 'l']
    return .null
  | some 't' =>
    word ['r', 'u', 'e']
    return .bool true
  | some 'f' =>
    word ['a', 'l', 's', 'e']
    return .bool false
  | some '"' =>
    skip
    return .text (← text)
  | some '[' => return .array
  | some '\x7b' => return .object
  | some c => if c = '-' ∨ ('0' ≤ c ∧ c ≤ '9') then number else stopPast .noValue
  | none => stopPast .endOfValue

def asBool : Reader Bool := do
  match ← seen with
  | .bool b => return b
  | found => stop (.wrongKind found .bool)

def asWord : Reader Word := do
  match ← seen with
  | .integer n =>
    if small : n.toNat < 65536 then
      if 0 ≤ n then return ⟨n.toNat, small⟩
    stop (.wrongValue n .word)
  | found => stop (.wrongKind found .word)

def asText : Reader String := do
  match ← seen with
  | .text s => return s
  | found => stop (.wrongKind found .text)

def asPath : Reader (Option String) := do
  match ← seen with
  | .text s => return some s
  | .null => return none
  | found => stop (.wrongKind found .path)

/-- Whether an array has another item, which is read up to the item. `first` says that no item has
been read. -/
def anotherItem (first : Bool) : Reader Bool := do
  match ← token with
  | none => stopPast .endOfList
  | some ']' => return false
  | some c =>
    if first then return true
    else if c = ',' then
      skip
      match ← token with
      | none => stopPast .endOfValue
      | some ']' => stopPast .trailingComma
      | some _ => return true
    else stopPast .noListComma

def openArray (wanted : Wanted) : Reader Unit := do
  match ← seen with
  | .array => skip
  | found => stop (.wrongKind found wanted)

def closeArray : Reader Unit := do
  match ← token with
  | none => stopPast .endOfList
  | some ']' => skip
  | some ',' =>
    skip
    stopPast (if (← token) = some ']' then .trailingComma else .trailingCharacters)
  | some _ => stopPast .trailingCharacters

def listItem (item : Reader α) (before : List α) : Reader (List α ⊕ List α) := do
  if ← anotherItem before.isEmpty then return .inl ((← item) :: before)
  else return .inr before.reverse

def listOf (item : Reader α) : Reader (List α) := do
  openArray .list
  let items ← iterate (listItem item) []
  closeArray
  return items

/-- Reads the last `n` of `count` items, with those before them, last first. -/
def countedItems (item : Reader α) (count : Nat) : Nat → List α → Reader (List α)
  | 0, before => return before.reverse
  | n + 1, before => do
    if ← anotherItem before.isEmpty then countedItems item count n ((← item) :: before)
    else stopAfter ']' (.wrongLength before.length (.items count))

def listOfLength (count : Nat) (item : Reader α) : Reader (List α) := do
  openArray (.items count)
  let items ← countedItems item count count []
  closeArray
  return items

end Reader

end SyntaxPaint.Json

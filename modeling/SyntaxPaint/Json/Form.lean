import SyntaxPaint.Json.Skip
import SyntaxPaint.Json.Value

/-!
Records of JSON. A record is an object whose members are its fields in any order, or an array that
has the fields in their own order. A draft holds the fields that have been read.
-/

namespace SyntaxPaint.Json

structure Field (δ : Type) where
  key : String
  held : δ → Bool
  read : δ → Reader δ

structure Form (δ α : Type) where
  name : String
  fields : List (Field δ)
  /-- Whether members that are no fields are passed over. -/
  lenient : Bool
  start : δ
  /-- The record of a draft, or the key of a field that the draft lacks. -/
  finish : δ → Except String α

namespace Form

open Reader

variable {δ α : Type}

/-- Whether an object has another member, which is read up to its key. `first` says that no member
has been read. -/
def anotherMember (first : Bool) : Reader Bool := do
  match ← token with
  | none => stopPast .endOfObject
  | some '\x7d' => return false
  | some c =>
    if first then
      if c = '"' then return true else stopPast .keyNoText
    else if c = ',' then
      skip
      match ← token with
      | none => stopPast .endOfValue
      | some '"' => return true
      | some '\x7d' => stopPast .trailingComma
      | some _ => stopPast .keyNoText
    else stopPast .noObjectComma

def memberOf (form : Form δ α) (draft : δ) (key : String) : Reader δ := do
  match form.fields.find? (·.key = key) with
  | some field =>
    if field.held draft then stopAfter '\x7d' (.duplicateField key)
    colon
    field.read draft
  | none =>
    unless form.lenient do
      stopAfter '\x7d' (.unknownField key (form.fields.map (·.key)))
    colon
    skipValue
    return draft

/-- Reads a member if there is one. The pair has the draft, and whether no member has been read. -/
def member (form : Form δ α) (draft : δ × Bool) : Reader ((δ × Bool) ⊕ δ) := do
  if ← anotherMember draft.2 then
    skip
    return .inl (← form.memberOf draft.1 (← text), false)
  else return .inr draft.1

def items (draft : δ × Nat) : List (Field δ) → Reader (δ × Nat)
  | [] => return draft
  | field :: fields => do
    if ← anotherItem (draft.2 = 0) then items (← field.read draft.1, draft.2 + 1) fields
    else return draft

def read (form : Form δ α) : Reader α := do
  match ← seen with
  | .object =>
    skip
    match form.finish (← iterate form.member (form.start, true)) with
    | .ok a =>
      skip
      return a
    | .error key => stopAfter '\x7d' (.missingField key)
  | .array =>
    skip
    let (draft, count) ← items (form.start, 0) form.fields
    match form.finish draft with
    | .ok a =>
      closeArray
      return a
    | .error _ => stopAfter ']' (.wrongLength count (.fields form.name form.fields.length))
  | found => stop (.wrongKind found (.record form.name))

end Form

end SyntaxPaint.Json

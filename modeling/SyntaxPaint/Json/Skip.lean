import SyntaxPaint.Json.Number
import SyntaxPaint.Json.Text

/-!
Values that are passed over. Open arrays and objects are kept on a list, innermost first, so that no
depth of nesting is too deep.
-/

namespace SyntaxPaint.Json

inductive Frame
  | array
  | object
deriving DecidableEq, Repr

namespace Frame

def closing : Frame → Char
  | array => ']'
  | object => '\x7d'

def endFault : Frame → Fault
  | array => .endOfList
  | object => .endOfObject

def commaFault : Frame → Fault
  | array => .noListComma
  | object => .noObjectComma

end Frame

namespace Reader

def skipDigit : Reader Unit := do
  let found ← digitNext
  skip
  unless found do stop .badNumber

def skipExponent : Reader Unit := do
  skip
  let _ ← exponentSign
  skipDigit
  let _ ← skipDigits

def skipFraction : Reader Unit := do
  match ← peek with
  | some '.' =>
    skip
    if (← skipDigits) = 0 then stopPast .badNumber
    match ← peek with
    | some 'e' | some 'E' => skipExponent
    | _ => return ()
  | some 'e' | some 'E' => skipExponent
  | _ => return ()

def skipNumber : Reader Unit := do
  if (← peek) = some '-' then skip
  let zero := (← peek) = some '0'
  skipDigit
  if zero then
    if ← digitNext then stopPast .badNumber
  let _ ← skipDigits
  skipFraction

def skipStart : Reader (Option Frame) := do
  match ← token with
  | some 'n' =>
    word ['u', 'l', 'l']
    return none
  | some 't' =>
    word ['r', 'u', 'e']
    return none
  | some 'f' =>
    word ['a', 'l', 's', 'e']
    return none
  | some '"' =>
    skip
    skipText
    return none
  | some '[' =>
    skip
    return some .array
  | some '\x7b' =>
    skip
    return some .object
  | some c =>
    if c = '-' ∨ ('0' ≤ c ∧ c ≤ '9') then
      skipNumber
      return none
    else stopPast .noValue
  | none => stopPast .endOfValue

/-- Passes over brackets that close and a comma. The result has the frames that stay open;
`afterItem` says whether the innermost one has an item that a comma may follow. -/
def skipClosings (afterItem : Bool) : List Frame → Reader (List Frame)
  | [] => return []
  | frame :: outer => do
    match ← token with
    | none => stopPast frame.endFault
    | some c =>
      if c = frame.closing then
        skip
        skipClosings true outer
      else if !afterItem then return frame :: outer
      else if c = ',' then
        skip
        return frame :: outer
      else stopPast frame.commaFault

def skipKey : Reader Unit := do
  match ← token with
  | none => stopPast .endOfObject
  | some '"' =>
    skip
    skipText
    colon
  | some _ => stopPast .keyNoText

/-- Passes over one value inside open frames, and over what stands before the next one. -/
def skipItem (outer : List Frame) : Reader (List Frame ⊕ Unit) := do
  let frames ←
    match ← skipStart with
    | some frame => skipClosings false (frame :: outer)
    | none => skipClosings true outer
  match frames with
  | [] => return .inr ()
  | frame :: _ =>
    if frame = .object then skipKey
    return .inl frames

def skipValue : Reader Unit :=
  iterate skipItem []

end Reader

end SyntaxPaint.Json

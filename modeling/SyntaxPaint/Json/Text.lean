import SyntaxPaint.Json.Reader
import SyntaxPaint.Json.Spelling

/-!
Strings of JSON. Between the quotes and the escapes of a string that is read stands UTF-8. A string
that is passed over may stand for no text, as long as its escapes are complete.
-/

namespace SyntaxPaint.Json

open Text (Bytes)

def isFirstHalf (unit : Nat) : Bool :=
  0xD800 ≤ unit ∧ unit < 0xDC00

def isSecondHalf (unit : Nat) : Bool :=
  0xDC00 ≤ unit ∧ unit < 0xE000

def joinHalves (first second : Nat) : Char :=
  Char.ofNat (0x10000 + (first - 0xD800) * 0x400 + (second - 0xDC00))

def unit? (b : Bytes) : Option Nat :=
  b.foldlM (fun n x => (hexDigit? (Char.ofNat x.toNat)).map fun d => n * 16 + d) 0

def firstVisible : Char :=
  ' '

namespace Reader

def unit : Reader Nat := fun rest =>
  match rest with
  | a :: b :: c :: d :: rest =>
    match unit? [a, b, c, d] with
    | some n => .ok (n, rest)
    | none => stop .badEscape rest
  | _ => stop .endOfText []

def secondEscape (c : Char) : Reader Unit := do
  match ← next with
  | none => stop .endOfText
  | some d => unless d = c do stop .noSecondEscape

def character : Reader Char := do
  let first ← unit
  if isSecondHalf first then stop .loneSurrogate
  else if isFirstHalf first then
    secondEscape '\\'
    secondEscape 'u'
    let second ← unit
    if isSecondHalf second then return joinHalves first second else stop .loneSurrogate
  else return Char.ofNat first

def escape : Reader Char := do
  match ← next with
  | none => stop .endOfText
  | some 'u' => character
  | some c =>
    match unescape? c with
    | some meant => return meant
    | none => stop .badEscape

/-- The text that bytes, last first, spell before a closing quote. If they spell none, the fault is
as far before the quote as their flaw is before their end; an escape counts as the bytes that it
stands for. -/
def spelled (bytes : Bytes) : Reader String := fun rest =>
  match Bytes.decode? bytes.reverse with
  | some text => .ok (text, rest)
  | none =>
    let flaw := Text.Flaw.first bytes.reverse
    .error ⟨.badText, bytes.length - (flaw.index + 1) + rest.length⟩

/-- Reads one piece of a string: its end, an escape, or a byte that stands for itself. The bytes
before it are listed last first. -/
def piece (bytes : Bytes) : Reader (Bytes ⊕ String) := do
  match ← peek with
  | none => stop .endOfText
  | some '"' =>
    let text ← spelled bytes
    skip
    return .inr text
  | some '\\' =>
    skip
    let meant ← escape
    return .inl ((Bytes.ofString meant.toString).reverse ++ bytes)
  | some c =>
    skip
    if c < firstVisible then stop .controlCharacter
    return .inl (c.toUInt8 :: bytes)

def text : Reader String :=
  iterate piece []

def skipEscape : Reader Unit := do
  match ← next with
  | none => stop .endOfText
  | some 'u' =>
    let _ ← unit
  | some c => if (unescape? c).isNone then stop .badEscape

def skipPiece (_ : Unit) : Reader (Unit ⊕ Unit) := do
  match ← peek with
  | none => stop .endOfText
  | some '"' =>
    skip
    return .inr ()
  | some '\\' =>
    skip
    skipEscape
    return .inl ()
  | some c =>
    if c < firstVisible then stop .controlCharacter
    skip
    return .inl ()

def skipText : Reader Unit :=
  iterate skipPiece ()

end Reader

end SyntaxPaint.Json

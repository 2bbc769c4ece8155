import SyntaxPaint.Tables.Basic
import SyntaxPaint.Text.Bytes

/-!
The binary form of tables: a magic text, the two counts in four bytes each, the class map, one bit
per state that says whether it accepts, the labels, the transitions, and the name. Numbers are
written low byte first, and a text is written after its length in bytes. What follows the name is
not looked at.
-/

namespace SyntaxPaint.Binary

open Text (Bytes)

def magic : Bytes :=
  Bytes.ofString "SXDFA001"

def word (n : Nat) : Bytes :=
  [UInt8.ofNat n, UInt8.ofNat (n / 256)]

def doubleWord (n : Nat) : Bytes :=
  word n ++ word (n / 65536)

def text (s : String) : Except Error Bytes :=
  if s.utf8ByteSize < 65536 then .ok (word s.utf8ByteSize ++ Bytes.ofString s)
  else fail (.longText s.utf8ByteSize)

def bitBytes (n : Nat) : Nat :=
  (n + 7) / 8

def byteOfBits (bits : List Bool) : UInt8 :=
  UInt8.ofNat (bits.foldr (fun b n => b.toNat + 2 * n) 0)

def bitsOfByte (b : UInt8) : List Bool :=
  (List.range 8).map b.toNat.testBit

def packBits (bits : List Bool) : Bytes :=
  match bits with
  | [] => []
  | first :: rest => byteOfBits ((first :: rest).take 8) :: packBits (rest.drop 7)
termination_by bits.length

def unpackBits (n : Nat) (b : Bytes) : List Bool :=
  (b.flatMap bitsOfByte).take n

def encode (t : Tables) : Except Error Bytes := do
  let labels ← t.labels.toList.mapM text
  let name ← text t.name
  return magic ++ doubleWord t.numStates ++ doubleWord t.numClasses ++
    t.classes.toArray.toList.flatMap word ++ packBits t.accept.toList ++ labels.flatten ++
    t.transitions.toList.flatMap word ++ name

/-- A reading of the first part of some bytes, which returns the others. -/
abbrev Read (α : Type) := StateT Bytes (Except Error) α

namespace Read

def bytes (part : String) (n : Nat) : Read Bytes := fun b =>
  let cut := b.splitAt n
  if cut.1.length = n then .ok cut else fail (.truncated part n b.length)

def value (b : Bytes) : Nat :=
  b.foldr (fun x n => x.toNat + 256 * n) 0

def word (part : String) : Read Nat :=
  value <$> bytes part 2

def doubleWord (part : String) : Read Nat :=
  value <$> bytes part 4

/-- Reads a count that has four bytes but has to fit into two. -/
def count (part : String) : Read { n : Nat // n < 65536 } := do
  let n ← doubleWord part
  if small : n < 65536 then return ⟨n, small⟩
  else throw (.within s!"{part} exceeds u16" (.ofCause .longCount))

def text (part : String) : Read String := do
  let length ← word part
  let b ← bytes part length
  match Bytes.decode? b with
  | some s => return s
  | none => throw (.within s!"{part} is not UTF-8" (.ofCause (.encoding (.first b))))

/-- Reads `n` items, with those before them, last first. -/
def items {α : Type} (item : Read α) : Nat → List α → Read (List α)
  | 0, before => fun b => .ok (before.reverse, b)
  | n + 1, before => fun b =>
    match item b with
    | .ok (a, rest) => items item n (a :: before) rest
    | .error e => .error e

def layout : Read Layout := do
  let start ← bytes "magic" 8
  unless start = magic do
    throw (.ofCause .badMagic)
  let states ← count "num_states"
  let classes ← count "num_alphabets"
  let classMap ← items (word "alphabet_of") 256 []
  let accept ← bytes "accept bits" (bitBytes states)
  let labels ← items (text "label") states []
  let transitions ← items (word "transitions") (states * classes) []
  let name ← text "name"
  return {
    name
    numStates := states
    numClasses := classes
    classes := Layout.classMap classMap
    accept := (unpackBits states accept).toArray
    labels := labels.toArray
    transitions := transitions.toArray
    numStates_lt := states.property
    numClasses_lt := classes.property }

end Read

def decode (b : Bytes) : Except Error Tables := do
  let (layout, _) ← Read.layout b
  layout.check

end SyntaxPaint.Binary

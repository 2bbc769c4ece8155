import SyntaxPaint.Number.Shortest
import SyntaxPaint.Text.Bytes
import SyntaxPaint.Text.Quoted

/-!
Why a document can not be read: a fault, and the place where it was noticed.
-/

namespace SyntaxPaint.Json

open Text (Bytes)

/-- What a value is seen to be. Arrays and objects are known by their brackets. -/
inductive Found
  | null
  | bool (b : Bool)
  | integer (n : Int)
  | float (negative : Bool) (x : Binary64)
  | text (s : String)
  | array
  | object
deriving DecidableEq, Repr

def Found.message : Found → String
  | null => "null"
  | bool b => s!"boolean `{b}`"
  | integer n => s!"integer `{n}`"
  | float negative x => s!"floating point `{x.text negative}`"
  | text s => s!"string {Text.Quoted.text s}"
  | array => "sequence"
  | object => "map"

inductive Wanted
  | bool
  | word
  | text
  | path
  | list
  | items (count : Nat)
  | record (name : String)
  | fields (name : String) (count : Nat)
deriving DecidableEq, Repr

def Wanted.message : Wanted → String
  | bool => "a boolean"
  | word => "u16"
  | text => "a string"
  | path => "path string"
  | list => "a sequence"
  | items count => s!"an array of size {count}"
  | record name => s!"struct {name}"
  | fields name count => s!"struct {name} with {count} elements"

inductive Fault
  | endOfValue
  | endOfList
  | endOfObject
  | endOfText
  | noColon
  | noListComma
  | noObjectComma
  | noWord
  | noValue
  | badEscape
  | badNumber
  | bigNumber
  | badText
  | controlCharacter
  | keyNoText
  | loneSurrogate
  | trailingComma
  | trailingCharacters
  | noSecondEscape
  | wrongKind (found : Found) (wanted : Wanted)
  | wrongValue (n : Int) (wanted : Wanted)
  | wrongLength (count : Nat) (wanted : Wanted)
  | missingField (key : String)
  | duplicateField (key : String)
  | unknownField (key : String) (known : List String)
deriving DecidableEq, Repr

def named (key : String) : String :=
  s!"`{key}`"

def Fault.message : Fault → String
  | endOfValue => "EOF while parsing a value"
  | endOfList => "EOF while parsing a list"
  | endOfObject => "EOF while parsing an object"
  | endOfText => "EOF while parsing a string"
  | noColon => "expected `:`"
  | noListComma => "expected `,` or `]`"
  | noObjectComma => "expected `,` or `\x7d`"
  | noWord => "expected ident"
  | noValue => "expected value"
  | badEscape => "invalid escape"
  | badNumber => "invalid number"
  | bigNumber => "number out of range"
  | badText => "invalid unicode code point"
  | controlCharacter => "control character (\\u0000-\\u001F) found while parsing a string"
  | keyNoText => "key must be a string"
  | loneSurrogate => "lone leading surrogate in hex escape"
  | trailingComma => "trailing comma"
  | trailingCharacters => "trailing characters"
  | noSecondEscape => "unexpected end of hex escape"
  | wrongKind found wanted => s!"invalid type: {found.message}, expected {wanted.message}"
  | wrongValue n wanted =>
      s!"invalid value: {(Found.integer n).message}, expected {wanted.message}"
  | wrongLength count wanted => s!"invalid length {count}, expected {wanted.message}"
  | missingField key => "missing field " ++ named key
  | duplicateField key => "duplicate field " ++ named key
  | unknownField key known =>
      "unknown field " ++ named key ++ ", expected one of " ++ ", ".intercalate (known.map named)

/-- A line, counted from one, and a number of bytes in it. -/
structure Place where
  line : Nat
  column : Nat
deriving DecidableEq, Repr

namespace Place

def newline : UInt8 :=
  10

def after (read : Bytes) : Place where
  line := read.count newline + 1
  column := (read.reverse.takeWhile (· ≠ newline)).length

def message (p : Place) : String :=
  s!"line {p.line} column {p.column}"

end Place

end SyntaxPaint.Json

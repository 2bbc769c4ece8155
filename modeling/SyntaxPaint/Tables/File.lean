import SyntaxPaint.Storage.Basic
import SyntaxPaint.Tables.Binary
import SyntaxPaint.Tables.Record
import SyntaxPaint.Text.Quoted

/-!
Tables in files. The extension of a file's name says which form the tables in it have.
-/

namespace SyntaxPaint

def fileName? (path : String) : Option (List Char) :=
  let names := (path.toList.splitOn '/').filter fun name => name ≠ [] ∧ name ≠ ['.']
  names.getLast?.filter (· ≠ ['.', '.'])

/-- What follows the last point of a file's name; a point at its start does not count. -/
def extension? (path : String) : Option String := do
  let name ← fileName? path
  let last := name.reverse.takeWhile (· ≠ '.')
  let stem := name.length - last.length - 1
  if last.length < name.length ∧ 0 < stem then some (String.ofList last.reverse) else none

inductive Format
  | json
  | binary
deriving DecidableEq, Repr

def Format.ofExtension? : String → Option Format
  | "json" => some json
  | "bin" => some binary
  | _ => none

namespace Tables

variable {m : Type → Type} [Monad m] [Storage m]

def decode (format : Format) (b : Text.Bytes) : Except Error Tables :=
  match format with
  | .json => Record.decode b
  | .binary => Binary.decode b

def encode (format : Format) (t : Tables) : Except Error Text.Bytes :=
  match format with
  | .json => .ok (Record.encode t)
  | .binary => Binary.encode t

/-- Reads tables from a file, whose extension is looked at after it has been read. -/
def load (path : String) : ExceptT Error m Tables := do
  let b ← Storage.readBytes path
  match (extension? path).bind Format.ofExtension? with
  | some format => during s!"load {path}" (decode format b)
  | none => throw (.ofCause (.unknownExtension (extension? path) path))

def save (format : Format) (path : String) (t : Tables) : ExceptT Error m Unit := do
  ExceptT.adapt (Error.within s!"create {path}") (Storage.perform (Storage.write path []))
  Storage.perform (Storage.write path (← encode format t))

end Tables

end SyntaxPaint

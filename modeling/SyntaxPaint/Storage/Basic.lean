import SyntaxPaint.Error
import SyntaxPaint.Text.Bytes

/-!
Places that keep bytes under paths. The programs of this library use storage through this class, so
that they run on a real disk and on one in memory alike.
-/

namespace SyntaxPaint

open Text (Bytes)

class Storage (m : Type → Type) where
  read : String → m (Except StorageFault Bytes)
  write : String → Bytes → m (Except StorageFault Unit)
  createFolders : String → m (Except StorageFault Unit)

namespace Storage

variable {m : Type → Type} [Monad m] [Storage m]

def perform {α : Type} (operation : m (Except StorageFault α)) : ExceptT Error m α :=
  ExceptT.mk do
    return (← operation).mapError fun fault => .ofCause (.storage fault)

def readBytes (path : String) : ExceptT Error m Bytes :=
  ExceptT.adapt (Error.within s!"read {path}") (perform (read path))

def readText (path : String) : ExceptT Error m String := do
  match Bytes.decode? (← readBytes path) with
  | some s => return s
  | none => throw (.within s!"read {path}" (.ofCause (.storage .notText)))

end Storage

end SyntaxPaint
